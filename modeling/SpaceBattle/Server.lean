import SpaceBattle.Refinement
import SpaceBattle.Streams

/-!
# The server

From bytes to the hall. The engine reads the streams of its connections, the pool hands each
request to the processer of its connection, the processers share the rooms, and the rooms are
those of a hall. `serves_hall` puts the four together : whatever bytes arrive, and however
their reads interleave, the exchanges of the server are those of a run of the hall on the
requests that the streams hold.
-/

namespace SpaceBattle

open Cpp InputConnection Network

/-- The request of an event, and its answer. -/
def Lobby.exchange? : Lobby.Event × Option Response → Option (Request × Response)
  | (.request _ asked, some response) => some (asked, response)
  | _ => none

/-- The requests of a trace with their answers, in order. -/
def Lobby.exchanges (tr : List (Lobby.Event × Option Response)) : List (Request × Response) :=
  tr.filterMap Lobby.exchange?

namespace InputConnectionPool

/-- To the rooms, an event of the pool is nothing, or the event of a client with the same
request and answer. -/
theorem exchange_step {s s' : InputConnectionPool} {e : Event} {o : Option Response} {l : Lobby}
    (hs : s.Identified) (hrooms : l.rooms = s.roomInterface)
    (hstep : pool.step s e = some (s', o)) :
    (s'.roomInterface = s.roomInterface ∧ served? (e, o) = none) ∨
      ∃ e' l', lobby.step l e' = some (l', o) ∧ l'.rooms = s'.roomInterface ∧
        Lobby.exchange? (e', o) = (served? (e, o)).map Prod.snd := by
  rcases step_cases hstep with
    ⟨rfl, rfl, rfl⟩ | ⟨h, request, c, response, rp, rooms, rfl, rfl, hfind, hprocess, -, rfl⟩ |
    ⟨h, c, rfl, rfl, hfind, rfl⟩
  · exact Or.inl ⟨rfl, rfl⟩
  · have hid : c.requestProcesser.playerId = (l.processer c.id).playerId :=
      hs c (find_spec hfind).1
    obtain ⟨rp₁, h₁⟩ := RequestProcesser.process_of_playerId hid hprocess
    rw [← hrooms] at h₁
    exact Or.inr ⟨.request c.id request, _, Lobby.step_of_process h₁, rfl, rfl⟩
  · refine Or.inr ⟨.disconnect c.id, _, rfl, ?_, rfl⟩
    have hid := hs c (find_spec hfind).1
    simp only [hrooms, RequestProcesser.removeFromRoom, Lobby.playerId_processer, ← hid]
    rfl

/-- The rooms of a pool are those of a lobby with the same exchanges in the same order. -/
theorem exchanges_of_run {ptr : List (Event × Option Response)} {s : InputConnectionPool}
    (h : pool.Run ptr s) : ∃ ltr l, lobby.Run ltr l ∧ l.rooms = s.roomInterface ∧
      Lobby.exchanges ltr = (served ptr).map Prod.snd := by
  induction h with
  | nil => exact ⟨[], _, .nil, rfl, rfl⟩
  | @snoc ptr s s' e o hrun hstep ih =>
    obtain ⟨ltr, l, hlobby, hrooms, hexchanges⟩ := ih
    rcases exchange_step (identified_of_run hrun) hrooms hstep with
      ⟨hsame, hnone⟩ | ⟨e', l', hl', hrooms', hexchange⟩
    · exact ⟨ltr, l, hlobby, hrooms.trans hsame.symm, by rw [served_snoc, hnone, hexchanges]; simp⟩
    · refine ⟨_, l', hlobby.snoc hl', hrooms', ?_⟩
      rw [Lobby.exchanges, List.filterMap_append, filterMap_singleton_eq_toList, hexchange,
        served_snoc, List.map_append, ← hexchanges]
      cases served? (e, o) <;> rfl

end InputConnectionPool

namespace Engine

/-- The server, while it runs, is the hall on the requests that the streams of its
connections hold, in some order. -/
theorem serves_hall {tr : List (Event × Option Response)} {s : Engine} (h : engine.Run tr s)
    (hfault : s.fault = none) : ∃ xs htr a,
      (∀ g, Parses g tr ((on g xs).map Prod.fst) (s.session g).input) ∧
      xs.map (fun x => (x.1, x.2.2)) = given tr ∧ hall.Run htr a ∧
      Lobby.exchanges htr = xs.map Prod.snd ∧ Houses s.connections.roomInterface a := by
  obtain ⟨ptr, hs⟩ := parsed_of_run h hfault
  obtain ⟨ltr, l, hlobby, hrooms, hexchanges⟩ := InputConnectionPool.exchanges_of_run hs.pool
  obtain ⟨a, hhall, hhouses⟩ := bisimulation_hall.run hlobby
  exact ⟨served ptr, ltr, a, hs.parses, hs.given, hhall, hexchanges, hrooms ▸ hhouses⟩

/-- Two clients, one of which pipelines two requests. -/
theorem serves_hall_pipelined : ∃ tr s, engine.Run tr s ∧ (given tr).map Prod.fst = [0, 1, 0] ∧
    ∃ xs htr a, (∀ g, Parses g tr ((on g xs).map Prod.fst) (s.session g).input) ∧
      xs.map (fun x => (x.1, x.2.2)) = given tr ∧ hall.Run htr a ∧
      Lobby.exchanges htr = xs.map Prod.snd ∧ Houses s.connections.roomInterface a := by
  have hrun := Machine.run_of_isSome engine
    [.accept, .accept,
      .received 0 ((makeRequest .clientConnect [lit "ada"]).bytes.take 25) [7] fun _ => 0,
      .received 0 ((makeRequest .clientConnect [lit "ada"]).bytes.drop 25) [] fun _ => 0,
      .received 1 ((makeRequest .nbrPeopleLoggedIn []).bytes.take 25) [] fun _ => 0,
      .received 0 ((makeRequest .clientConnect [lit "eve"]).bytes.take 25) [] fun _ => 0,
      .received 1 [] [7] fun _ => 0,
      .received 0 ((makeRequest .clientConnect [lit "eve"]).bytes.drop 25) [] fun _ => 0]
    (by decide +kernel)
  exact ⟨_, _, hrun, by decide +kernel, serves_hall hrun (by decide +kernel)⟩

end Engine

end SpaceBattle
