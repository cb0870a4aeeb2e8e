import SpaceBattle.Lib.Machine
import SpaceBattle.RequestProcesser
import SpaceBattle.Seats

/-!
# The lobby

The rooms, shared by the request processers of any number of clients, as a machine : an
event is a request of a client, handed to `RequestProcesser::process`, or its
disconnection, `remove_from_room`. Every event can happen in every state
(`Lobby.enabled`), so the runs are all the interleavings.

`Lobby.step_cases` is the one inversion of a step : a request has an `Outcome`, a
disconnection empties the client's seats. Every reachable state has well-formed rooms
(`wellFormed_of_run`).
-/

namespace SpaceBattle

open Cpp RequestProcesser

/-- The rooms, and the nickname each client's processer holds. -/
structure Lobby where
  rooms : RoomInterface
  nickname : ℕ → Str

namespace Lobby

inductive Event
  | request (p : ℕ) (request : Request)
  | disconnect (p : ℕ)
  deriving DecidableEq

/-- The client the event comes from. -/
def Event.client : Event → ℕ
  | request p _ => p
  | disconnect p => p

/-- The processer of a client. -/
def processer (s : Lobby) (p : ℕ) : RequestProcesser :=
  ⟨p, s.nickname p⟩

@[simp] theorem playerId_processer (s : Lobby) (p : ℕ) : (s.processer p).playerId = p :=
  rfl

/-- One event, and its answer : a disconnection has none. -/
def step (s : Lobby) : Event → Option (Lobby × Option Response)
  | .request p request =>
    match (s.processer p).process s.rooms request with
    | .error _ => none
    | .ok (resp, rp, rooms) =>
      some (⟨rooms, Function.update s.nickname p rp.nickname⟩, some resp)
  | .disconnect p => some ({ s with rooms := (s.processer p).removeFromRoom s.rooms }, none)

end Lobby

/-- The lobby, from empty rooms. -/
def lobby : Machine Lobby Lobby.Event (Option Response) :=
  ⟨⟨RoomInterface.new, fun _ => []⟩, Lobby.step⟩

namespace Lobby

/-! ## Steps -/

/-- A request steps as its processing says. -/
theorem step_of_process {s : Lobby} {p : ℕ} {request : Request} {resp : Response}
    {rp : RequestProcesser} {rooms : RoomInterface}
    (h : (s.processer p).process s.rooms request = .ok (resp, rp, rooms)) :
    lobby.step s (.request p request) =
      some (⟨rooms, Function.update s.nickname p rp.nickname⟩, some resp) := by
  simp only [lobby, step, h]

/-- Every event can happen in every state. -/
theorem enabled (s : Lobby) (e : Event) : ∃ s' o, lobby.step s e = some (s', o) := by
  cases e with
  | request p request =>
    obtain ⟨resp, rp, rooms, h, -⟩ := process_outcome (s.processer p) s.rooms request
    exact ⟨_, _, step_of_process h⟩
  | disconnect p => exact ⟨_, none, rfl⟩

/-- What a step does. -/
theorem step_cases {s s' : Lobby} {e : Event} {o : Option Response}
    (h : lobby.step s e = some (s', o)) :
    (∃ p request resp rp, e = .request p request ∧ o = some resp ∧
      (s.processer p).process s.rooms request = .ok (resp, rp, s'.rooms) ∧
      Outcome (s.processer p) s.rooms request resp rp s'.rooms) ∨
    ∃ p, e = .disconnect p ∧ o = none ∧ s'.rooms = (s.processer p).removeFromRoom s.rooms := by
  cases e with
  | request p request =>
    obtain ⟨resp, rp, rooms, hprocess, ho⟩ := process_outcome (s.processer p) s.rooms request
    simp only [step_of_process hprocess, Option.some.injEq, Prod.mk.injEq] at h
    obtain ⟨rfl, rfl⟩ := h
    exact Or.inl ⟨p, request, resp, rp, rfl, rfl, hprocess, ho⟩
  | disconnect p =>
    simp only [lobby, step, Option.some.injEq, Prod.mk.injEq] at h
    obtain ⟨rfl, rfl⟩ := h
    exact Or.inr ⟨p, rfl, rfl, rfl⟩

/-- The step of a request. -/
theorem step_request {s s' : Lobby} {p : ℕ} {request : Request} {o : Option Response}
    (h : lobby.step s (.request p request) = some (s', o)) : ∃ resp rp, o = some resp ∧
      (s.processer p).process s.rooms request = .ok (resp, rp, s'.rooms) ∧
      Outcome (s.processer p) s.rooms request resp rp s'.rooms := by
  rcases step_cases h with ⟨_, _, resp, rp, he, ho, hout⟩ | ⟨_, he, -⟩
  · obtain ⟨rfl, rfl⟩ := Event.request.inj he
    exact ⟨resp, rp, ho, hout⟩
  · cases he

/-- An outcome whose answer reports no change is `unchanged`. -/
theorem eq_of_not_reportsChange {rp rp' : RequestProcesser} {rooms rooms' : RoomInterface}
    {request : Request} {resp : Response} (ho : Outcome rp rooms request resp rp' rooms')
    (hquiet : ¬∃ code, reportsChange code ∧ resp.Answers code) : rp' = rp ∧ rooms' = rooms := by
  have hloud {code : StatusCode} {body : List Str} (hresp : resp = makeResponse code body)
      (hcode : reportsChange code) : False :=
    hquiet ⟨code, hcode, hresp ▸ answers_makeResponse.2 rfl⟩
  cases ho with
  | unchanged => exact ⟨rfl, rfl⟩
  | connected | saidInGeneral | saidInGame | left | created | joined => exact (hloud rfl rfl).elim

/-- In every state every request is answered, and unless the answer is `CLIENT_CONNECTED`,
`OK`, `GAME_CREATED`, `CLIENT_JOIN_GAME` or `LEAVE_SUCCESS` the state is what it was. -/
theorem request_answered (s : Lobby) (p : ℕ) (request : Request) :
    ∃ resp rp s', (s.processer p).process s.rooms request = .ok (resp, rp, s'.rooms) ∧
      lobby.step s (.request p request) = some (s', some resp) ∧
      ((¬∃ code, reportsChange code ∧ resp.Answers code) → s' = s) := by
  obtain ⟨resp, rp, rooms, hprocess, ho⟩ := process_outcome (s.processer p) s.rooms request
  refine ⟨resp, rp, _, hprocess, step_of_process hprocess, fun hquiet => ?_⟩
  obtain ⟨rfl, rfl⟩ := eq_of_not_reportsChange ho hquiet
  simp [processer]

end Lobby

/-! ## Well-formed rooms -/

open RoomInterface

section

variable {rooms : RoomInterface} (wf : rooms.WellFormed)

include wf

theorem RoomInterface.WellFormed.removeFromGeneral (p : ℕ) :
    ({ rooms with general := (rooms.general.removeClient p).2 } : RoomInterface).WellFormed :=
  wf.withGeneral (by simp) (by simpa using wf.clients.erase _)

/-- A disconnection takes the client out of the general room, and out of every game. -/
theorem RoomInterface.WellFormed.removeFromRoom_eq (rp : RequestProcesser) :
    rp.removeFromRoom rooms =
      ({ rooms with general := (rooms.general.removeClient rp.playerId).2 } :
        RoomInterface).mapGame (·.without rp.playerId) :=
  (wf.removeFromGeneral rp.playerId).removeFromGame_eq_mapGame rp.playerId

theorem RoomInterface.WellFormed.removeFromRoom (rp : RequestProcesser) :
    (rp.removeFromRoom rooms).WellFormed := by
  rw [wf.removeFromRoom_eq]
  exact (wf.removeFromGeneral _).without _

/-- Whatever a request does, it keeps the rooms well formed. -/
theorem RequestProcesser.Outcome.wellFormed {rp rp' : RequestProcesser} {request : Request}
    {resp : Response} {rooms' : RoomInterface} (ho : Outcome rp rooms request resp rp' rooms') :
    rooms'.WellFormed := by
  cases ho with
  | connected _ _ hnew =>
    exact wf.withGeneral rfl (wf.clients.append (List.nodup_singleton _)
      fun q hq hp => hnew (List.mem_singleton.1 hp ▸ hq))
  | saidInGeneral => exact wf.withGeneral (by simp) wf.clients
  | saidInGame _ _ _ _ hit =>
    rw [wf.assign_eq_mapGame hit (·.say _ _)]
    exact wf.say _ _ _
  | left =>
    rw [wf.removeFromGame_eq_mapGame]
    exact wf.without _
  | created _ _ _ _ hfree => exact wf.createGame hfree _ _ _
  | joined _ _ _ hfree hit hplace =>
    rw [wf.assign_eq_mapGame hit (·.seat _ _)]
    obtain ⟨hmem, hid⟩ := getGame_spec hit
    exact wf.seatAt ⟨_, hmem, hid⟩ hfree fun g hg hgid =>
      wf.eq_of_roomId hmem hg (hid.trans hgid.symm) ▸ hplace
  | unchanged => exact wf

end

theorem Lobby.wellFormed_of_step {s s' : Lobby} {e : Lobby.Event} {o : Option Response}
    (wf : s.rooms.WellFormed) (h : lobby.step s e = some (s', o)) : s'.rooms.WellFormed := by
  rcases Lobby.step_cases h with ⟨_, _, _, _, -, -, -, ho⟩ | ⟨p, -, -, hrooms⟩
  · exact ho.wellFormed wf
  · rw [hrooms]
    exact wf.removeFromRoom _

/-- Every reachable state has well-formed rooms. -/
theorem Lobby.wellFormed_of_run {tr : List (Lobby.Event × Option Response)} {s : Lobby}
    (h : lobby.Run tr s) : s.rooms.WellFormed :=
  h.invariant RoomInterface.WellFormed.new fun _ _ _ _ wf hstep => Lobby.wellFormed_of_step wf hstep

/-- A property of single game rooms that a new game has, and that a message, a seat taken
and a seat left keep, holds of every game room of a run. -/
theorem Lobby.forall_game_of_run {P : GameRoom → Prop}
    (hnew : ∀ r name nbrViewer limitOfTime p,
      P ((GameRoom.new r name nbrViewer limitOfTime).seat p .player))
    (hsay : ∀ g p message, P g → P (g.say p message))
    (hseat : ∀ g p role, g.hasPlace role → P g → P (g.seat p role))
    (hwithout : ∀ g p, P g → P (g.without p))
    {tr : List (Lobby.Event × Option Response)} {s : Lobby} (h : lobby.Run tr s) :
    ∀ g ∈ s.rooms.gameRoom, P g := by
  have hmap {rooms : RoomInterface} {F : GameRoom → GameRoom} (hrooms : ∀ g ∈ rooms.gameRoom, P g)
      (hF : ∀ g ∈ rooms.gameRoom, P g → P (F g)) : ∀ g ∈ (rooms.mapGame F).gameRoom, P g :=
    List.forall_mem_map.2 fun g hg => hF g hg (hrooms g hg)
  refine h.invariant_trace (I := fun _ s => ∀ g ∈ s.rooms.gameRoom, P g) (by simp [lobby, new])
    fun tr s e s' o hr hs hstep => ?_
  have wf := Lobby.wellFormed_of_run hr
  rcases Lobby.step_cases hstep with ⟨_, _, _, _, -, -, -, ho⟩ | ⟨p, -, -, hrooms⟩
  · generalize s'.rooms = rooms' at ho
    cases ho with
    | connected | saidInGeneral | unchanged => exact hs
    | saidInGame _ _ _ _ hit =>
      rw [wf.assign_eq_mapGame hit (·.say _ _)]
      exact hmap hs fun g _ hg => atGame_induction (fun _ => hsay g _ _ hg) hg
    | left =>
      rw [wf.removeFromGame_eq_mapGame]
      exact hmap hs fun g _ hg => hwithout g _ hg
    | created =>
      rw [createGame_snd]
      intro g hg
      rcases List.mem_append.1 hg with hg | hg
      · exact hs g hg
      · rw [List.mem_singleton.1 hg]
        exact hnew _ _ _ _ _
    | joined _ _ _ _ hit hplace =>
      rw [wf.assign_eq_mapGame hit (·.seat _ _)]
      refine hmap hs fun g hmem hg => atGame_induction (fun hgid => ?_) hg
      obtain ⟨hvalue, hid⟩ := getGame_spec hit
      rw [wf.eq_of_roomId hvalue hmem (hid.trans hgid.symm)] at hplace
      exact hseat g _ _ hplace hg
  · rw [hrooms, wf.removeFromRoom_eq]
    exact hmap hs fun g _ hg => hwithout g _ hg

end SpaceBattle
