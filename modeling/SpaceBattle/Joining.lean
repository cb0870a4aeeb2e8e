import SpaceBattle.Games
import SpaceBattle.Seating

/-!
# Joining a game

The outcomes of `JOIN_AS_PLAYER` as a table over every reachable state
(`joinAsPlayer_table`) : each refusal is an equivalence, given that the ones before it do
not apply, and the last row says exactly what a join changes and what it answers. The
test against two players is a test of the capacity because no room has more, so a seat
that a player left is free again (`fewer_after_departure`).
-/

namespace SpaceBattle

open Cpp RequestProcesser RoomInterface

theorem isInRoom_iff_mem {rooms : RoomInterface} {p : ℕ} :
    rooms.isInRoom p ↔ ∃ g ∈ rooms.gameRoom, p ∈ g.playerIds ∨ p ∈ g.viewerIds := by
  simp [isInRoom, findIf_isSome_iff, GameRoom.isInRoom]

/-- A room has an id exactly if a game was created with it. -/
theorem exists_room_iff {tr : List (Lobby.Event × Option Response)} {s : Lobby}
    (h : lobby.Run tr s) (r : ℕ) :
    (∃ g ∈ s.rooms.gameRoom, g.roomId = r) ↔ ∃ x ∈ gamesCreated tr, x.idText = digits r := by
  rw [← records_of_run h]
  simp only [List.mem_map, exists_exists_and_eq_and]
  refine exists_congr fun g => and_congr_right fun _ => ⟨fun hid => by rw [← hid]; rfl,
    fun hid => ?_⟩
  have hnumber := congrArg number hid
  simpa [GameRoom.record] using hnumber

/-- The rows of a join : the client is seated, the body is malformed, no room has the id, or
there is such a room. -/
theorem Lobby.step_join_cases {s s' : Lobby} (wf : s.rooms.WellFormed) {p : ℕ}
    {request : Request} (role : Role) (hop : request.header.opCode = (joinCode role).code)
    {response : Response}
    (hstep : lobby.step s (.request p request) = some (s', some response)) :
    (s.rooms.isInRoom p ∧ response = makeResponse .permissionDenied []) ∨
    ¬s.rooms.isInRoom p ∧
      (request.addressed 1 = none ∧ response = formatError 0x01 ∨
      ∃ r, request.addressed 1 = some r ∧
        ((∀ g ∈ s.rooms.gameRoom, g.roomId ≠ r) ∧ response = makeResponse .roomNotFound [] ∨
        ∃ g ∈ s.rooms.gameRoom, g.roomId = r ∧
          (¬g.hasPlace role ∧ response = makeResponse .tooManyClients [] ∨
          g.hasPlace role ∧
            response = makeResponse .clientJoinGame
              (gameInformation (g.seat p role).getGameInfo) ∧
            s' = { s with rooms := s.rooms.mapGame (atGame r (·.seat p role)) }))) := by
  rw [step_join wf role hop] at hstep
  simp only [Option.some.injEq] at hstep
  split at hstep
  · exact Or.inl ⟨‹_›, (Option.some.inj (Prod.mk.inj hstep).2).symm⟩
  refine Or.inr ⟨‹_›, ?_⟩
  split at hstep
  · exact Or.inl ⟨‹_›, (Option.some.inj (Prod.mk.inj hstep).2).symm⟩
  rename_i r hr
  refine Or.inr ⟨r, hr, ?_⟩
  split at hstep
  · exact Or.inl ⟨gameAt_eq_none_iff.1 ‹_›, (Option.some.inj (Prod.mk.inj hstep).2).symm⟩
  rename_i g hat
  obtain ⟨hg, hid⟩ := gameAt_spec hat
  refine Or.inr ⟨g, hg, hid, ?_⟩
  split at hstep
  · exact Or.inr ⟨‹_›, (Option.some.inj (Prod.mk.inj hstep).2).symm, (Prod.mk.inj hstep).1.symm⟩
  · exact Or.inl ⟨‹_›, (Option.some.inj (Prod.mk.inj hstep).2).symm⟩

theorem GameRoom.hasPlace_player {g : GameRoom} :
    g.hasPlace .player ↔ g.playerIds.length ≠ 2 := by
  simp [hasPlace]

/-- A player that departs leaves fewer than two players in its room. -/
theorem fewer_after_departure {s s' : Lobby} (wf : s.rooms.WellFormed) {e : Lobby.Event}
    {o : Option Response} (hstep : lobby.step s e = some (s', o)) (hdeparts : e.Departs) {r : ℕ}
    (hseated : s.rooms.Seated e.client r .player) :
    ∃ g ∈ s'.rooms.gameRoom, g.roomId = r ∧ g.hasPlace .player := by
  obtain ⟨g, hg, rfl, hp⟩ := hseated
  have hplayer : e.client ∈ g.playerIds := hp
  have hgame : s'.rooms.gameRoom = s.rooms.gameRoom.map (·.without e.client) := by
    cases e with
    | disconnect p =>
      simp only [lobby, Lobby.step, Option.some.injEq, Prod.mk.injEq] at hstep
      rw [← hstep.1]
      exact congrArg RoomInterface.gameRoom (wf.removeFromRoom_eq (s.processer p))
    | request p request =>
      obtain ⟨response, rp, rfl, hprocess, -⟩ := Lobby.step_request hstep
      rw [process_leave hdeparts] at hprocess
      simp only [Except.ok.injEq, Prod.mk.injEq] at hprocess
      rw [← hprocess.2.2, wf.removeFromGame_eq_mapGame]
      rfl
  refine ⟨g.without e.client, hgame ▸ List.mem_map_of_mem hg, rfl, ?_⟩
  have hle := wf.players g hg
  have hlength := List.length_erase_of_mem hplayer
  have hpos := List.length_pos_of_mem hplayer
  have hne : (g.playerIds.erase e.client).length ≠ 2 := by omega
  exact GameRoom.hasPlace_player.2 hne

/-- A seat a player departs from is free for any client that is in no room. -/
theorem join_after_departure {s s₁ : Lobby} (wf : s.rooms.WellFormed) {e : Lobby.Event}
    {o : Option Response} {r : ℕ} (he : lobby.step s e = some (s₁, o)) (hdeparts : e.Departs)
    (hseated : s.rooms.Seated e.client r .player) {q : ℕ} {request : Request}
    (hop : request.header.opCode = OpCode.joinAsPlayer.code)
    (hr : request.addressed 1 = some r) (hfree : ¬s₁.rooms.isInRoom q) :
    ∃ s₂ response, lobby.step s₁ (.request q request) = some (s₂, some response) ∧
      response.Answers .clientJoinGame := by
  obtain ⟨g, hg, hgid, hplace⟩ := fewer_after_departure wf he hdeparts hseated
  have wf₁ := Lobby.wellFormed_of_step wf he
  rw [Lobby.step_join wf₁ .player hop, if_neg hfree]
  simp only [hr, ← hgid, wf₁.gameAt_eq_some hg, if_pos hplace]
  exact ⟨_, _, rfl, by simp⟩

/-- The outcomes of `JOIN_AS_PLAYER` in every reachable state : the refusals in the order
they are made, each exactly when it applies, and what a join answers and changes. A room
has two players at most, and a seat a player departs from is free for any free client. -/
theorem joinAsPlayer_table {tr : List (Lobby.Event × Option Response)} {s : Lobby}
    (h : lobby.Run tr s) :
    (∀ p request, request.header.opCode = OpCode.joinAsPlayer.code → ∃ s' response,
      lobby.step s (.request p request) = some (s', some response) ∧
        (response.Answers .permissionDenied ↔
          ∃ g ∈ s.rooms.gameRoom, p ∈ g.playerIds ∨ p ∈ g.viewerIds) ∧
        ((¬∃ g ∈ s.rooms.gameRoom, p ∈ g.playerIds ∨ p ∈ g.viewerIds) →
          (response.Answers .formatError ↔
            ¬∃ text n, request.body.content = [text] ∧ stoi text = .ok n) ∧
          ∀ text n, request.body.content = [text] → stoi text = .ok n →
            (response.Answers .roomNotFound ↔
              ¬∃ x ∈ gamesCreated tr, x.idText = digits (toSize n)) ∧
            ((∃ x ∈ gamesCreated tr, x.idText = digits (toSize n)) →
              ∃ g ∈ s.rooms.gameRoom, g.roomId = toSize n ∧
                (response.Answers .tooManyClients ↔ g.playerIds.length = 2) ∧
                (g.playerIds.length ≠ 2 →
                  response = makeResponse .clientJoinGame
                      [g.name, digits g.viewerLimit, digits (g.playerIds.length + 1),
                        digits g.timeLimit, digits g.roomStatus.toUnsigned] ∧
                  s' = { s with rooms := { s.rooms with gameRoom := s.rooms.gameRoom.map fun x =>
                    if x.roomId = g.roomId then { x with playerIds := x.playerIds ++ [p] }
                    else x } })))) ∧
    (∀ g ∈ s.rooms.gameRoom, g.playerIds.length ≤ 2) ∧
    ∀ e s₁ o r, lobby.step s e = some (s₁, o) → e.Departs →
      s.rooms.Seated e.client r .player → ∀ q request text n,
        request.header.opCode = OpCode.joinAsPlayer.code → request.body.content = [text] →
        stoi text = .ok n → toSize n = r → ¬s₁.rooms.isInRoom q →
          ∃ s₂ response, lobby.step s₁ (.request q request) = some (s₂, some response) ∧
            response.Answers .clientJoinGame := by
  have wf := Lobby.wellFormed_of_run h
  refine ⟨fun p request hop => ?_, wf.players,
    fun e s₁ o r he hdeparts hseated q request text n hop hbody hn hid hfree => ?_⟩
  · obtain ⟨s', o, hstep⟩ := Lobby.enabled s (.request p request)
    obtain ⟨response, -, rfl, -⟩ := Lobby.step_request hstep
    refine ⟨s', response, hstep, ?_⟩
    rw [← isInRoom_iff_mem]
    rcases Lobby.step_join_cases wf .player hop hstep with
      ⟨hin, rfl⟩ | ⟨hfree, ⟨hnone, rfl⟩ | ⟨r, hr, hrow⟩⟩
    · exact ⟨iff_of_true (by simp) hin, fun hfree => absurd hin hfree⟩
    · have hmalformed := Request.addressed_one_eq_none_iff.1 hnone
      exact ⟨iff_of_false (by simp [formatError]) hfree,
        fun _ => ⟨iff_of_true (by simp [formatError]) hmalformed,
          fun text n hbody hn => absurd ⟨text, n, hbody, hn⟩ hmalformed⟩⟩
    obtain ⟨text, n, hbody, hn, rfl⟩ := Request.addressed_one_eq_some_iff.1 hr
    have hwell : ¬¬∃ text n, request.body.content = [text] ∧ stoi text = .ok n :=
      not_not_intro ⟨text, n, hbody, hn⟩
    have hread {text' : Str} {n' : ℤ} (hbody' : request.body.content = [text'])
        (hn' : stoi text' = .ok n') : n' = n := by
      obtain rfl := List.singleton_inj.1 (hbody.symm.trans hbody')
      exact Except.ok.inj (hn'.symm.trans hn)
    refine ⟨iff_of_false ?_ hfree, fun _ => ⟨iff_of_false ?_ hwell, ?_⟩⟩
    · rcases hrow with ⟨-, rfl⟩ | ⟨g, -, -, ⟨-, rfl⟩ | ⟨-, rfl, -⟩⟩ <;> simp
    · rcases hrow with ⟨-, rfl⟩ | ⟨g, -, -, ⟨-, rfl⟩ | ⟨-, rfl, -⟩⟩ <;> simp
    intro text' n' hbody' hn'
    obtain rfl := hread hbody' hn'
    rcases hrow with ⟨hnone, rfl⟩ | ⟨g, hg, hid, hrow⟩
    · have hnever : ¬∃ x ∈ gamesCreated tr, x.idText = digits (toSize n') := by
        rw [← exists_room_iff h]
        rintro ⟨g, hg, hid⟩
        exact hnone g hg hid
      exact ⟨iff_of_true (by simp) hnever, fun hever => absurd hever hnever⟩
    have hever : ∃ x ∈ gamesCreated tr, x.idText = digits (toSize n') :=
      (exists_room_iff h _).1 ⟨g, hg, hid⟩
    rcases hrow with ⟨hfull, rfl⟩ | ⟨hplace, rfl, rfl⟩
    · have htwo : g.playerIds.length = 2 := not_not.1 fun hne =>
        hfull (GameRoom.hasPlace_player.2 hne)
      exact ⟨iff_of_false (by simp) (not_not_intro hever), fun _ => ⟨g, hg, hid,
        iff_of_true (by simp) htwo, fun hne => absurd htwo hne⟩⟩
    · refine ⟨iff_of_false (by simp) (not_not_intro hever), fun _ => ⟨g, hg, hid,
        iff_of_false (by simp) (GameRoom.hasPlace_player.1 hplace), fun _ => ⟨?_, ?_⟩⟩⟩
      · simp [gameInformation, GameRoom.getGameInfo, GameRoom.seat]
      · rw [← hid]
        rfl
  · exact join_after_departure wf he hdeparts hseated hop
      (Request.addressed_one_eq_some_iff.2 ⟨text, n, hbody, hn, hid⟩) hfree

/-- A second player joins, and a third is answered that the room is full. -/
theorem joinAsPlayer_table_third : ∃ tr s, lobby.Run tr s ∧
    (∃ g ∈ s.rooms.gameRoom, g.playerIds = [1, 2]) ∧
    ∃ s' response, lobby.step s (.request 3 (makeRequest .joinAsPlayer [lit "1"])) =
      some (s', some response) ∧ response.Answers .tooManyClients := by
  have h := Machine.run_of_isSome lobby
    [.request 1 (makeRequest .createGame [lit "duel", lit "1", lit "5", lit "30"]),
      .request 2 (makeRequest .joinAsPlayer [lit "1"])] (by decide +kernel)
  refine ⟨_, _, h, by decide +kernel, ?_⟩
  obtain ⟨s', response, hstep, -, hrows⟩ :=
    (joinAsPlayer_table h).1 3 (makeRequest .joinAsPlayer [lit "1"]) (by decide)
  obtain ⟨-, hwell⟩ := hrows (by decide +kernel)
  obtain ⟨-, hroom⟩ := hwell (lit "1") 1 (by decide) (by decide)
  obtain ⟨g, hg, -, hfull, -⟩ := hroom (by decide +kernel)
  refine ⟨s', response, hstep, hfull.2 ?_⟩
  clear hfull
  revert g
  decide +kernel

end SpaceBattle
