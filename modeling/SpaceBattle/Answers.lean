import SpaceBattle.Connection
import SpaceBattle.Lobby

/-!
# Answers on the wire

An answer holds strings the server wrote and names of games, which clients chose. A name
comes out of a decoded body, so it holds no NUL, and stays as it is as long as the game
exists (`plainNames_step`). With that every answer a lobby gives to decoded requests is a
`make_response` of NUL-free strings (`answer_eq_makeResponse`), and the client reads it
back from the bytes the server writes (`answer_received`).
-/

namespace SpaceBattle

open Cpp RequestProcesser RoomInterface

/-! ## Decoded requests -/

/-- The request was decoded from received bytes : 25 of a header, with whatever follows
them in memory, and as many of a body as the header says, with nothing behind them, so
that a body string ends at its NUL or at the last byte. -/
def Request.Received (request : Request) : Prop :=
  ∃ headerBytes beyond bodyBytes, headerBytes.length = 25 ∧
    HeaderRequest.ofBuffer (headerBytes ++ beyond) 25 = .ok request.header ∧
    bodyBytes.length = request.header.bufferSize.toNat ∧
    request.body = Body.ofBuffer bodyBytes bodyBytes.length

/-- The request of an event was received. -/
def Lobby.Event.Received : Lobby.Event → Prop
  | request _ req => req.Received
  | disconnect _ => True

theorem Request.Received.zero_notMem {request : Request} (h : request.Received) :
    ∀ s ∈ request.body.content, 0 ∉ s := by
  obtain ⟨_, _, _, -, -, -, hbody⟩ := h
  rw [hbody]
  exact fun s hs => Body.zero_notMem_ofBuffer hs

/-- What a client sends is received. -/
theorem received_makeRequest (opCode : OpCode) {body : List Str} (hnul : ∀ s ∈ body, 0 ∉ s)
    (hsize : (Body.ofList body).size < 2 ^ 31) : (makeRequest opCode body).Received := by
  have hplain := plain_makeRequest opCode hsize
  have hbody := Body.ofBuffer_bytes (makeRequest opCode body).body
    (by simpa [makeRequest] using hnul) []
  refine ⟨_, [], (makeRequest opCode body).body.bytes, hplain.length_bytes,
    HeaderRequest.ofBuffer_bytes hplain [], ?_, ?_⟩
  · rw [Body.length_bytes, bufferSize_makeRequest opCode hsize]
  · rw [Body.length_bytes]
    simpa using hbody.symm

/-! ## Names -/

/-- No game's name holds a NUL. -/
def PlainNames (rooms : RoomInterface) : Prop :=
  ∀ g ∈ rooms.gameRoom, 0 ∉ g.name

theorem PlainNames.mapGame {rooms : RoomInterface} (h : PlainNames rooms) {F : GameRoom → GameRoom}
    (hF : ∀ g, (F g).name = g.name) : PlainNames (rooms.mapGame F) := by
  refine List.forall_mem_map.2 fun g hg => ?_
  rw [hF]
  exact h g hg

theorem name_seat (g : GameRoom) (p : ℕ) (role : Role) : (g.seat p role).name = g.name := by
  cases role <;> rfl

theorem PlainNames.outcome {rp rp' : RequestProcesser} {rooms rooms' : RoomInterface}
    {request : Request} {resp : Response} (h : PlainNames rooms) (wf : rooms.WellFormed)
    (hbody : ∀ s ∈ request.body.content, 0 ∉ s)
    (ho : Outcome rp rooms request resp rp' rooms') : PlainNames rooms' := by
  cases ho with
  | connected | saidInGeneral | unchanged => exact h
  | saidInGame _ _ _ _ hit =>
    rw [wf.assign_eq_mapGame hit (·.say _ _)]
    exact h.mapGame (atGame_congr (·.name) fun _ => rfl)
  | left =>
    rw [wf.removeFromGame_eq_mapGame]
    exact h.mapGame fun _ => rfl
  | created name _ _ _ _ hname =>
    intro g hg
    rcases List.mem_append.1 hg with hg | hg
    · exact h g hg
    · rw [List.mem_singleton.1 hg]
      exact hbody name hname
  | @joined role _ _ _ _ _ _ _ hit =>
    rw [wf.assign_eq_mapGame hit (·.seat _ role)]
    exact h.mapGame (atGame_congr (·.name) fun g => name_seat g _ role)

/-- A step on a received request keeps the names free of NULs. -/
theorem plainNames_step {s s' : Lobby} {e : Lobby.Event} {o : Option Response}
    (wf : s.rooms.WellFormed) (h : PlainNames s.rooms) (he : e.Received)
    (hstep : lobby.step s e = some (s', o)) : PlainNames s'.rooms := by
  rcases Lobby.step_cases hstep with ⟨p, request, resp, rp, rfl, -, -, ho⟩ | ⟨p, -, -, hrooms⟩
  · exact h.outcome wf (Request.Received.zero_notMem he) ho
  · rw [hrooms, wf.removeFromRoom_eq]
    have hsame : PlainNames ({ s.rooms with
      general := (s.rooms.general.removeClient p).2 } : RoomInterface) := h
    exact hsame.mapGame fun _ => rfl

theorem plainNames_of_run {tr : List (Lobby.Event × Option Response)} {s : Lobby}
    (h : lobby.Run tr s) (hreceived : ∀ x ∈ tr, x.1.Received) : PlainNames s.rooms := by
  have hboth : s.rooms.WellFormed ∧ ((∀ x ∈ tr, x.1.Received) → PlainNames s.rooms) := by
    refine h.invariant_trace
      (I := fun tr s => s.rooms.WellFormed ∧ ((∀ x ∈ tr, x.1.Received) → PlainNames s.rooms))
      ⟨WellFormed.new, ?_⟩ fun tr s e s' o _ hs hstep =>
        ⟨Lobby.wellFormed_of_step hs.1 hstep, fun hr => ?_⟩
    · simp [lobby, RoomInterface.new, PlainNames]
    · exact plainNames_step hs.1 (hs.2 fun x hx => hr x (List.mem_append_left _ hx))
        (hr (e, o) (by simp)) hstep
  exact hboth.2 hreceived

/-! ## Answers -/

/-- Every answer is a `make_response` of strings without a NUL. -/
theorem answer_eq_makeResponse {rp rp' : RequestProcesser} {rooms rooms' : RoomInterface}
    {request : Request} {resp : Response} (h : PlainNames rooms)
    (ho : Outcome rp rooms request resp rp' rooms') :
    ∃ code body, resp = makeResponse code body ∧ ∀ s ∈ body, 0 ∉ s := by
  have hdigits (n : ℕ) : 0 ∉ digits n := zero_notMem_digits n
  cases ho with
  | connected => exact ⟨_, _, rfl, by simp [hdigits]⟩
  | saidInGeneral => exact ⟨_, _, rfl, by simp⟩
  | saidInGame => exact ⟨_, _, rfl, by simp⟩
  | left => exact ⟨_, _, rfl, by simp⟩
  | created => exact ⟨_, _, rfl, by simp [hdigits]⟩
  | @joined role _ _ it _ _ _ _ hit =>
    refine ⟨_, _, rfl, ?_⟩
    have hname : 0 ∉ (it.value.seat rp.playerId role).name := by
      rw [name_seat]
      exact h _ (getGame_spec hit).1
    simp [gameInformation, GameRoom.getGameInfo, hdigits, hname]
  | unchanged _ hbody =>
    refine ⟨_, _, rfl, fun s hs => ?_⟩
    rcases hbody s hs with hs | ⟨g, hg, rfl⟩
    · exact hs
    · exact h g hg

/-- In every state that received requests lead to, the answer to any next request is read
back by the client from the bytes the server writes, exactly and no further. -/
theorem answer_received {tr : List (Lobby.Event × Option Response)} {s : Lobby}
    (h : lobby.Run tr s) (hreceived : ∀ x ∈ tr, x.1.Received) (p : ℕ) (request : Request) :
    ∃ resp rp rooms, (s.processer p).process s.rooms request = .ok (resp, rp, rooms) ∧
      (resp.body.size < 2 ^ 31 → ∀ heap beyondHeader beyondBody rest, ∃ resp',
        OutputConnection.receive beyondHeader beyondBody
          (InputConnection.write heap resp ++ rest) = .ok (some (resp', rest)) ∧
        resp'.header.statusCode = resp.header.statusCode ∧
        resp'.body.content = resp.body.content) := by
  obtain ⟨resp, rp, rooms, hprocess, ho⟩ := process_outcome (s.processer p) s.rooms request
  refine ⟨resp, rp, rooms, hprocess, fun hsize heap beyondHeader beyondBody rest => ?_⟩
  obtain ⟨code, body, rfl, hnul⟩ := answer_eq_makeResponse (plainNames_of_run h hreceived) ho
  exact ⟨_, receive_write heap beyondHeader beyondBody rest code hnul hsize, rfl, rfl⟩

/-- The list of games that a client without a seat is shown, with a name another client
chose: it is read back with that name. -/
theorem answer_received_list : ∃ tr s, lobby.Run tr s ∧ (∀ x ∈ tr, x.1.Received) ∧
    ∃ resp rp rooms, (s.processer 2).process s.rooms (makeRequest .getGameInfo []) =
        .ok (resp, rp, rooms) ∧
      resp.body.content = [lit "1", lit "duel"] ∧ resp.body.size < 2 ^ 31 ∧
      (resp.body.size < 2 ^ 31 → ∀ heap beyondHeader beyondBody rest, ∃ resp',
        OutputConnection.receive beyondHeader beyondBody
          (InputConnection.write heap resp ++ rest) = .ok (some (resp', rest)) ∧
        resp'.header.statusCode = resp.header.statusCode ∧
        resp'.body.content = resp.body.content) := by
  obtain ⟨tr, s, hrun, hevents, hshown, hshort⟩ : ∃ tr s, lobby.Run tr s ∧
      tr.map Prod.fst =
        [.request 1 (makeRequest .createGame [lit "duel", lit "1", lit "5", lit "30"])] ∧
      ((s.processer 2).process s.rooms (makeRequest .getGameInfo [])).toOption.map
        (fun o => o.1.body.content) = some [lit "1", lit "duel"] ∧
      ((s.processer 2).process s.rooms (makeRequest .getGameInfo [])).toOption.map
        (fun o => decide (o.1.body.size < 2 ^ 31)) = some true :=
    ⟨_, _, Machine.run_of_isSome lobby _ (by decide +kernel),
      Machine.map_fst_exec (Option.some_get _).symm, by decide +kernel, by decide +kernel⟩
  have hreceived : ∀ x ∈ tr, x.1.Received := fun x hx => by
    have hmem := List.mem_map_of_mem (f := Prod.fst) hx
    rw [hevents, List.mem_singleton] at hmem
    rw [hmem]
    exact received_makeRequest .createGame (by decide +kernel) (by decide +kernel)
  obtain ⟨resp, rp, rooms, hprocess, hback⟩ := answer_received hrun hreceived 2 _
  rw [hprocess] at hshown hshort
  exact ⟨tr, s, hrun, hreceived, resp, rp, rooms, hprocess, Option.some.inj hshown,
    of_decide_eq_true (Option.some.inj hshort), hback⟩

end SpaceBattle
