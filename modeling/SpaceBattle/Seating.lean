import SpaceBattle.Lobby

/-!
# The seating map

The purpose of the game rooms is a partial map from clients to a room and a role. It is
computed from the trace of the lobby alone : a game created puts its client in the player
seat of the room the answer names, a join answered with success puts the client in the
room the request names, `LEAVE` and a disconnection clear the client's seat, and nothing
else changes the map (`seatingUpdate`).

`Realises` relates the concrete vectors to a seating map, `realises_step` says that every
step keeps the relation, and `seating_refinement` that the rooms of every run realise the
map of its trace : each client sits where the map says, once, and a step moves nobody
but its own client.
-/

namespace SpaceBattle

open Cpp RequestProcesser

/-! ## The abstract map -/

/-- Where each client sits. -/
abbrev Seating := ℕ → Option (ℕ × Role)

/-- The room id the first string of the request denotes. -/
def Request.namedRoom (request : Request) : ℕ :=
  match stoi (request.body.content.headD []) with
  | .ok n => toSize n
  | .error _ => 0

/-- The number the first string of the response is the numeral of. -/
def Response.namedRoom (response : Response) : ℕ :=
  number (response.body.content.headD [])

/-- What an event and its answer do to the seating map. -/
def seatingUpdate (M : Seating) : Lobby.Event × Option Response → Seating
  | (.disconnect p, _) => Function.update M p none
  | (.request _ _, none) => M
  | (.request p request, some response) =>
    if request.header.opCode = OpCode.leave.code then Function.update M p none
    else if request.header.opCode = OpCode.createGame.code ∧ response.Answers .gameCreated then
      Function.update M p (some (response.namedRoom, .player))
    else if request.header.opCode = OpCode.joinAsPlayer.code ∧
        response.Answers .clientJoinGame then
      Function.update M p (some (request.namedRoom, .player))
    else if request.header.opCode = OpCode.joinAsViewer.code ∧
        response.Answers .clientJoinGame then
      Function.update M p (some (request.namedRoom, .viewer))
    else M

/-- The seating map of a trace. -/
def seating (tr : List (Lobby.Event × Option Response)) : Seating :=
  tr.foldl seatingUpdate fun _ => none

theorem update_none_eq_some {M : Seating} {p q : ℕ} {x : ℕ × Role} :
    Function.update M p none q = some x ↔ q ≠ p ∧ M q = some x := by
  by_cases h : q = p <;> simp [h]

theorem update_seat_eq_some {M : Seating} {p q r r' : ℕ} {role role' : Role} (hfree : M p = none) :
    Function.update M p (some (r, role)) q = some (r', role') ↔
      M q = some (r', role') ∨ (q = p ∧ r' = r ∧ role' = role) := by
  by_cases h : q = p
  · subst h
    simp [hfree, eq_comm]
  · simp [h]

/-! ## The refinement -/

/-- The clients sit where the map says. -/
def Realises (rooms : RoomInterface) (M : Seating) : Prop :=
  ∀ p r role, rooms.Seated p r role ↔ M p = some (r, role)

theorem Realises.eq_none {rooms : RoomInterface} {M : Seating} (h : Realises rooms M) {p : ℕ}
    (hfree : ¬rooms.isInRoom p) : M p = none := by
  cases hp : M p with
  | none => rfl
  | some x => exact absurd (RoomInterface.isInRoom_iff.2 ⟨x.1, x.2, (h p x.1 x.2).2 hp⟩) hfree

theorem process_leave {rp : RequestProcesser} {room : RoomInterface} {request : Request}
    (hop : request.header.opCode = OpCode.leave.code) : rp.process room request =
      .ok (makeResponse .leaveSuccess [], rp, (room.removeFromGame rp.playerId).2) := by
  simp [process, hop, leave]

/-- A request keeps the rooms and the map related. -/
theorem realises_request {s s' : Lobby} {M : Seating} (wf : s.rooms.WellFormed)
    (hM : Realises s.rooms M) {p : ℕ} {request : Request} {response : Response}
    {rp : RequestProcesser}
    (hprocess : (s.processer p).process s.rooms request = .ok (response, rp, s'.rooms))
    (ho : Outcome (s.processer p) s.rooms request response rp s'.rooms) :
    Realises s'.rooms (seatingUpdate M (.request p request, some response)) := by
  intro q r role
  by_cases hleave : request.header.opCode = OpCode.leave.code
  · rw [process_leave hleave] at hprocess
    simp only [Except.ok.injEq, Prod.mk.injEq] at hprocess
    obtain ⟨rfl, rfl, hrooms⟩ := hprocess
    rw [← hrooms, wf.removeFromGame_eq_mapGame, wf.seated_without, hM]
    simp [seatingUpdate, hleave, update_none_eq_some]
  generalize s'.rooms = rooms' at ho
  cases ho with
  | connected hop =>
    rw [RoomInterface.seated_withGeneral, hM]
    simp [seatingUpdate, hop, OpCode.code]
  | saidInGeneral hop =>
    rw [RoomInterface.seated_withGeneral, hM]
    simp [seatingUpdate, hop, OpCode.code]
  | saidInGame hop _ _ _ hit =>
    rw [wf.assign_eq_mapGame hit (·.say _ _), RoomInterface.seated_say, hM]
    simp [seatingUpdate, hop, OpCode.code]
  | left hop => exact absurd hop hleave
  | created name nbrViewer limitOfTime hop hfree =>
    have hnone : M p = none := hM.eq_none hfree
    rw [RoomInterface.seated_createGame, hM]
    simp [seatingUpdate, hop, OpCode.code, update_seat_eq_some hnone, Response.namedRoom,
      RoomInterface.createGame]
  | @joined role' roomText n it hop hbody hroom hfree hit =>
    have hnamed : request.namedRoom = toSize n := by simp [Request.namedRoom, hbody, hroom]
    obtain ⟨hmem, hid⟩ := RoomInterface.getGame_spec hit
    have hupdate : seatingUpdate M (.request p request, some (makeResponse .clientJoinGame
        (gameInformation (it.value.seat p role').getGameInfo))) =
          Function.update M p (some (toSize n, role')) := by
      cases role' <;> simp [seatingUpdate, hop, joinCode, OpCode.code, hnamed]
    have hnone : M p = none := hM.eq_none hfree
    rw [wf.assign_eq_mapGame hit (·.seat _ _), RoomInterface.seated_seat ⟨_, hmem, hid⟩, hM,
      Lobby.playerId_processer, hupdate, update_seat_eq_some hnone]
  | @unchanged code _ hcode =>
    have hcreated : code ≠ .gameCreated := ne_of_reportsChange hcode rfl
    have hjoined : code ≠ .clientJoinGame := ne_of_reportsChange hcode rfl
    simpa [seatingUpdate, hleave, hcreated, hjoined] using hM q r role

/-- Every step keeps the rooms and the map related. -/
theorem realises_step {s s' : Lobby} {e : Lobby.Event} {o : Option Response} {M : Seating}
    (wf : s.rooms.WellFormed) (hM : Realises s.rooms M) (h : lobby.step s e = some (s', o)) :
    Realises s'.rooms (seatingUpdate M (e, o)) := by
  rcases Lobby.step_cases h with
    ⟨p, request, response, rp, rfl, rfl, hprocess, ho⟩ | ⟨p, rfl, rfl, hrooms⟩
  · exact realises_request wf hM hprocess ho
  · intro q r role
    rw [hrooms, wf.removeFromRoom_eq]
    exact ((wf.removeFromGeneral p).seated_without p).trans
      ((and_congr_right fun _ => hM q r role).trans update_none_eq_some.symm)

theorem realises_of_run {tr : List (Lobby.Event × Option Response)} {s : Lobby}
    (h : lobby.Run tr s) : Realises s.rooms (seating tr) := by
  have hinit : Realises lobby.init.rooms fun _ => none := fun p r role => by
    simp [lobby, RoomInterface.new, RoomInterface.Seated]
  have hboth := h.fold (R := fun (s : Lobby) M => s.rooms.WellFormed ∧ Realises s.rooms M)
    ⟨RoomInterface.WellFormed.new, hinit⟩ fun s e s' o M hs hstep =>
      ⟨Lobby.wellFormed_of_step hs.1 hstep, realises_step hs.1 hs.2 hstep⟩
  exact hboth.2

/-- The map changes at the client of the event only. -/
theorem seatingUpdate_of_ne {M : Seating} {e : Lobby.Event} {o : Option Response} {q : ℕ}
    (h : q ≠ e.client) : seatingUpdate M (e, o) q = M q := by
  have hq : ∀ x, Function.update M e.client x q = M q := fun x => Function.update_of_ne h x M
  rcases e with ⟨p, request⟩ | p
  · rcases o with _ | response
    · rfl
    · simp only [Lobby.Event.client] at hq
      simp only [seatingUpdate]
      split_ifs <;> simp [hq]
  · exact hq none

/-- `LEAVE`, and a disconnection. -/
def Lobby.Event.Departs : Lobby.Event → Prop
  | disconnect _ => True
  | request _ req => req.header.opCode = OpCode.leave.code

theorem seatingUpdate_of_departs {M : Seating} {s s' : Lobby} {e : Lobby.Event}
    {o : Option Response} (h : lobby.step s e = some (s', o)) (hdeparts : e.Departs) :
    seatingUpdate M (e, o) e.client = none := by
  cases e with
  | disconnect p => exact Function.update_self p none M
  | request p request =>
    obtain ⟨response, rp, rfl, -⟩ := Lobby.step_request h
    have hleave : request.header.opCode = OpCode.leave.code := hdeparts
    rw [seatingUpdate, if_pos hleave]
    exact Function.update_self p none M

/-- No client is in the vectors of the well-formed rooms twice. -/
theorem RoomInterface.WellFormed.nodup_everyone {rooms : RoomInterface} (wf : rooms.WellFormed) :
    (rooms.gameRoom.flatMap fun g => g.playerIds ++ g.viewerIds).Nodup := by
  have hseat {g g' : GameRoom} (hg : g ∈ rooms.gameRoom) (hg' : g' ∈ rooms.gameRoom) {p : ℕ}
      {role role' : Role} (hp : p ∈ g.occupants role) (hp' : p ∈ g'.occupants role') :
      g.roomId = g'.roomId ∧ role = role' :=
    wf.seat ⟨g, hg, rfl, hp⟩ ⟨g', hg', rfl, hp'⟩
  refine List.nodup_flatMap.2 ⟨fun g hg => ?_, ?_⟩
  · refine (wf.occupants g hg .player).append (wf.occupants g hg .viewer) fun p hp hv => ?_
    have hplayer : p ∈ g.occupants .player := hp
    have hviewer : p ∈ g.occupants .viewer := hv
    cases (hseat hg hg hplayer hviewer).2
  · refine (List.pairwise_map.1 wf.nodup_gameIds).imp_of_mem fun {g g'} hg hg' hne p hp hp' => ?_
    obtain ⟨role, hrole⟩ := GameRoom.mem_everyone.1 hp
    obtain ⟨role', hrole'⟩ := GameRoom.mem_everyone.1 hp'
    exact hne (hseat hg hg' hrole hrole').1

/-- In every reachable state the vectors of every room hold exactly the clients the map
seats there, nobody sits twice, no room has more than two players, and a step moves
nobody but its own client, which it removes completely if it departs. -/
theorem seating_refinement {tr : List (Lobby.Event × Option Response)} {s : Lobby}
    (h : lobby.Run tr s) :
    (∀ g ∈ s.rooms.gameRoom, ∀ p role,
      (p ∈ g.occupants role ↔ seating tr p = some (g.roomId, role)) ∧
        (g.occupants role).count p ≤ 1) ∧
    (∀ p r role, seating tr p = some (r, role) → ∃ g ∈ s.rooms.gameRoom, g.roomId = r) ∧
    (s.rooms.gameRoom.map (·.roomId)).Nodup ∧
    (s.rooms.gameRoom.flatMap fun g => g.playerIds ++ g.viewerIds).Nodup ∧
    (∀ g ∈ s.rooms.gameRoom, g.playerIds.length ≤ 2) ∧
    ∀ e s' o, lobby.step s e = some (s', o) →
      (∀ q r role, q ≠ e.client → (s'.rooms.Seated q r role ↔ s.rooms.Seated q r role)) ∧
      (e.Departs → ∀ r role, ¬s'.rooms.Seated e.client r role) := by
  have wf := Lobby.wellFormed_of_run h
  have hM := realises_of_run h
  refine ⟨fun g hg p role => ⟨⟨fun hp => ?_, fun hp => ?_⟩, ?_⟩, fun p r role hp => ?_,
    wf.nodup_gameIds, wf.nodup_everyone, wf.players, fun e s' o hstep => ?_⟩
  · exact (hM p g.roomId role).1 ⟨g, hg, rfl, hp⟩
  · obtain ⟨g', hg', hid, hp'⟩ := (hM p g.roomId role).2 hp
    exact wf.eq_of_roomId hg' hg hid ▸ hp'
  · exact List.nodup_iff_count_le_one.1 (wf.occupants g hg role) p
  · obtain ⟨g, hg, hid, -⟩ := (hM p r role).2 hp
    exact ⟨g, hg, hid⟩
  · have hM' := realises_step wf hM hstep
    refine ⟨fun q r role hne => ?_, fun hdeparts r role hseated => ?_⟩
    · rw [hM', seatingUpdate_of_ne hne, hM]
    · rw [hM', seatingUpdate_of_departs hstep hdeparts] at hseated
      simp at hseated

/-- A game with a player and a viewer. -/
theorem seating_refinement_two_clients : ∃ tr s, lobby.Run tr s ∧
    seating tr 1 = some (1, .player) ∧ seating tr 2 = some (1, .viewer) ∧
    ∀ g ∈ s.rooms.gameRoom, ∀ p role,
      (p ∈ g.occupants role ↔ seating tr p = some (g.roomId, role)) ∧
        (g.occupants role).count p ≤ 1 := by
  have hrun := Machine.run_of_isSome lobby
    [.request 1 (makeRequest .createGame [lit "duel", lit "1", lit "5", lit "30"]),
      .request 2 (makeRequest .joinAsViewer [lit "1"])] (by decide +kernel)
  exact ⟨_, _, hrun, by decide +kernel, by decide +kernel, (seating_refinement hrun).1⟩

end SpaceBattle
