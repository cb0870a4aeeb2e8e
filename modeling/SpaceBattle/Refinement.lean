import SpaceBattle.Hall
import SpaceBattle.Lib.Simulation

/-!
# The lobby is a hall

`Houses` relates rooms to a hall : the same clients are present, the same terms were agreed
on, the same clients sit in the same seats. In housed rooms `process` answers what the hall
answers and leads to rooms that house the hall after the command
(`Houses.process`), so the lobby and the hall have the same traces.
-/

namespace SpaceBattle

open Cpp RequestProcesser RoomInterface

/-! ## The relation -/

/-- The rooms are those of the hall. -/
structure Houses (rooms : RoomInterface) (s : Hall) : Prop where
  wf : rooms.WellFormed
  present : ∀ p, p ∈ rooms.general.client ↔ p ∈ s.present
  games : rooms.gameRoom.map GameRoom.terms = s.games
  seats : Realises rooms s.seats
  status : ∀ g ∈ rooms.gameRoom, g.roomStatus = .new

namespace Houses

theorem new : Houses RoomInterface.new hall.init where
  wf := .new
  present := fun p => by simp [RoomInterface.new, GeneralRoom.new, hall]
  games := rfl
  seats := fun p r role => by simp [RoomInterface.new, Seated, hall]
  status := by simp [RoomInterface.new]

variable {rooms : RoomInterface} {s : Hall} (h : Houses rooms s)

include h

/-! ## What the answers count -/

theorem ncard_present : s.present.ncard = rooms.getClientConnected := by
  have hset : s.present = (rooms.general.client.toFinset : Set ℕ) := by
    ext p
    rw [List.coe_toFinset, Set.mem_ofPred_eq, h.present]
  rw [hset, Set.ncard_coe_finset, List.toFinset_card_of_nodup h.wf.clients]
  rfl

theorem mem_occupants_iff {g : GameRoom} (hg : g ∈ rooms.gameRoom) {p : ℕ} {role : Role} :
    p ∈ g.occupants role ↔ p ∈ s.sitting g.roomId role := by
  refine ⟨fun hp => (h.seats _ _ _).1 ⟨g, hg, rfl, hp⟩, fun hp => ?_⟩
  obtain ⟨g', hg', hid, hp'⟩ := (h.seats _ _ _).2 hp
  exact h.wf.eq_of_roomId hg' hg hid ▸ hp'

theorem sitting_eq {g : GameRoom} (hg : g ∈ rooms.gameRoom) (role : Role) :
    s.sitting g.roomId role = ((g.occupants role).toFinset : Set ℕ) := by
  ext p
  rw [List.coe_toFinset, Set.mem_ofPred_eq, h.mem_occupants_iff hg]

theorem ncard_sitting {g : GameRoom} (hg : g ∈ rooms.gameRoom) (role : Role) :
    (s.sitting g.roomId role).ncard = (g.occupants role).length := by
  rw [h.sitting_eq hg, Set.ncard_coe_finset,
    List.toFinset_card_of_nodup (h.wf.occupants g hg role)]

theorem isInRoom_iff {p : ℕ} : rooms.isInRoom p ↔ s.seats p ≠ none := by
  rw [RoomInterface.isInRoom_iff, Option.ne_none_iff_exists']
  refine ⟨fun ⟨r, role, hp⟩ => ⟨(r, role), (h.seats p r role).1 hp⟩, ?_⟩
  rintro ⟨⟨r, role⟩, hp⟩
  exact ⟨r, role, (h.seats p r role).2 hp⟩

theorem length_games : s.games.length = rooms.gameRoom.length := by
  rw [← h.games, List.length_map]

/-- A game's id is its position, counted from one. -/
theorem roomId_eq {i : ℕ} {g : GameRoom} (hg : rooms.gameRoom[i]? = some g) :
    g.roomId = i + 1 := by
  have hid := congrArg (·[i]?) h.wf.gameIds
  obtain ⟨hi, -⟩ := List.getElem?_eq_some_iff.1 hg
  simp only [List.getElem?_map, hg, Option.map_some, List.getElem?_range' hi,
    Option.some.injEq] at hid
  omega

theorem map_gameAt (r : ℕ) : (rooms.gameAt r).map GameRoom.terms = s.game r := by
  have hgame (i : ℕ) : s.games[i]? = (rooms.gameRoom[i]?).map GameRoom.terms := by
    rw [← h.games, List.getElem?_map]
  cases hat : rooms.gameAt r with
  | none =>
    rw [gameAt_eq_none_iff] at hat
    unfold Hall.game
    split
    · rfl
    · rw [hgame]
      cases hg : rooms.gameRoom[r - 1]? with
      | none => rfl
      | some g =>
        have hid := h.roomId_eq hg
        exact absurd (show g.roomId = r by omega) (hat g (List.mem_of_getElem? hg))
  | some g =>
    obtain ⟨hmem, rfl⟩ := gameAt_spec hat
    obtain ⟨i, hi⟩ := List.getElem?_of_mem hmem
    have hid := h.roomId_eq hi
    rw [Hall.game, if_neg (by omega), hgame, show g.roomId - 1 = i by omega, hi]

theorem admits_iff {g : GameRoom} (hg : g ∈ rooms.gameRoom) (role : Role) :
    g.hasPlace role ↔ s.Admits g.roomId g.terms role := by
  cases role with
  | viewer => simp [GameRoom.hasPlace, Hall.Admits, GameRoom.terms]
  | player =>
    have hle := h.wf.players g hg
    have hncard : (s.sitting g.roomId .player).ncard = g.playerIds.length :=
      h.ncard_sitting hg .player
    rw [Hall.Admits, hncard]
    simp only [GameRoom.hasPlace, ne_eq, decide_not, Bool.not_eq_true', decide_eq_false_iff_not]
    omega

/-- What is asked about a game is asked about the room with its id. -/
theorem ask_eq (r : ℕ) (answer : Terms → Response) : s.ask r answer =
    match rooms.gameAt r with
    | none => makeResponse .roomNotFound []
    | some g => answer g.terms := by
  rw [Hall.ask, ← h.map_gameAt]
  cases rooms.gameAt r <;> rfl

/-! ## What changes -/

theorem withGeneral {g : GeneralRoom} {present : Set ℕ}
    (wf : ({ rooms with general := g } : RoomInterface).WellFormed)
    (hpresent : ∀ p, p ∈ g.client ↔ p ∈ present) :
    Houses { rooms with general := g } { s with present := present } :=
  ⟨wf, hpresent, h.games, h.seats, h.status⟩

/-- The game rooms change, but nothing that was agreed on. -/
theorem mapGame {F : GameRoom → GameRoom} (hterms : ∀ g, (F g).terms = g.terms)
    (hstatus : ∀ g, (F g).roomStatus = g.roomStatus) (wf : (rooms.mapGame F).WellFormed)
    {seats : Seating} (hseats : Realises (rooms.mapGame F) seats) :
    Houses (rooms.mapGame F) { s with seats := seats } where
  wf := wf
  present := h.present
  games := by
    rw [← h.games, RoomInterface.mapGame, List.map_map]
    exact List.map_congr_left fun g _ => hterms g
  seats := hseats
  status := List.forall_mem_map.2 fun g hg => (hstatus g).trans (h.status g hg)

theorem entered {p : ℕ} (hp : p ∉ rooms.general.client) :
    Houses { rooms with general := rooms.general.enter p } (s.after p .login) := by
  refine h.withGeneral (h.wf.withGeneral rfl (h.wf.clients.append (List.nodup_singleton _)
    fun q hq hp' => hp (List.mem_singleton.1 hp' ▸ hq))) fun q => ?_
  rw [Set.mem_insert_iff, ← h.present, GeneralRoom.enter]
  simp [or_comm]

theorem login_of_mem {p : ℕ} (hp : p ∈ rooms.general.client) :
    Houses rooms (s.after p .login) := by
  refine h.withGeneral h.wf fun q => ?_
  rw [Set.mem_insert_iff, ← h.present]
  exact ⟨Or.inr, fun hq => hq.elim (fun heq => heq ▸ hp) id⟩

theorem saidInGeneral (p : ℕ) (message : Str) :
    Houses { rooms with general := rooms.general.say p message } s :=
  h.withGeneral (h.wf.withGeneral rfl h.wf.clients) h.present

theorem said (r p : ℕ) (message : Str) :
    Houses (rooms.mapGame (atGame r (·.say p message))) s :=
  h.mapGame (atGame_congr (f := (·.say p message)) GameRoom.terms fun _ => rfl)
    (atGame_congr (·.roomStatus) fun _ => rfl) (h.wf.say r p message)
    fun q r' role => (seated_say r p message).trans (h.seats q r' role)

theorem left (p : ℕ) : Houses (rooms.mapGame (·.without p)) (s.unseat p) :=
  h.mapGame (F := (·.without p)) (fun _ => rfl) (fun _ => rfl) (h.wf.without p) fun q r role => by
    rw [h.wf.seated_without, h.seats, update_none_eq_some]

theorem joined {p : ℕ} {g : GameRoom} {role : Role} (hg : g ∈ rooms.gameRoom)
    (hfree : s.seats p = none) (hplace : g.hasPlace role) :
    Houses (rooms.mapGame (atGame g.roomId (·.seat p role))) (s.seat p g.roomId role) := by
  have hseat (x : GameRoom) : (x.seat p role).terms = x.terms ∧
      (x.seat p role).roomStatus = x.roomStatus := by
    cases role <;> exact ⟨rfl, rfl⟩
  refine h.mapGame (atGame_congr GameRoom.terms fun x => (hseat x).1)
    (atGame_congr (·.roomStatus) fun x => (hseat x).2) ?_ fun q r role' => ?_
  · refine h.wf.seatAt ⟨g, hg, rfl⟩ (fun hin => h.isInRoom_iff.1 hin hfree) fun g' hg' hid => ?_
    exact h.wf.eq_of_roomId hg hg' hid.symm ▸ hplace
  · rw [seated_seat ⟨g, hg, rfl⟩, h.seats, update_seat_eq_some hfree]

/-- What a client that takes a seat is told about the game. -/
theorem gameInformation_seat {p : ℕ} {g : GameRoom} {role : Role} (hg : g ∈ rooms.gameRoom)
    (hfree : s.seats p = none) (hplace : g.hasPlace role) :
    gameInformation (g.seat p role).getGameInfo =
      [g.terms.name, digits g.terms.viewerLimit,
        digits ((s.seat p g.roomId role).sitting g.roomId .player).ncard,
        digits g.terms.timeLimit, digits GameStatus.new.toUnsigned] := by
  have hmem : g.seat p role ∈ (rooms.mapGame (atGame g.roomId (·.seat p role))).gameRoom :=
    List.mem_map.2 ⟨g, hg, if_pos rfl⟩
  have hncard := (h.joined hg hfree hplace).ncard_sitting hmem .player
  rw [GameRoom.toRoom_seat] at hncard
  rw [hncard]
  have hstatus := h.status g hg
  cases role <;> simp [gameInformation, GameRoom.getGameInfo, GameRoom.seat, GameRoom.terms,
    GameRoom.occupants, hstatus]

theorem created {p : ℕ} (hfree : s.seats p = none) (terms : Terms) :
    Houses (rooms.createGame p terms.name terms.viewerLimit terms.timeLimit).2
      (s.openGame p terms) where
  wf := h.wf.createGame (fun hin => h.isInRoom_iff.1 hin hfree) _ _ _
  present := h.present
  games := by
    rw [createGame_snd, List.map_append, h.games]
    rfl
  seats := fun q r role => by
    rw [seated_createGame, h.seats, ← h.length_games, Hall.openGame, Hall.seat,
      update_seat_eq_some hfree]
  status := by
    intro g hg
    rcases List.mem_append.1 hg with hg | hg
    · exact h.status g hg
    · rw [List.mem_singleton.1 hg]
      rfl

theorem disconnected (rp : RequestProcesser) : Houses (rp.removeFromRoom rooms)
    { s.unseat rp.playerId with present := s.present \ {rp.playerId} } := by
  rw [h.wf.removeFromRoom_eq]
  refine Houses.left (h.withGeneral (h.wf.removeFromGeneral rp.playerId) fun q => ?_) rp.playerId
  rw [GeneralRoom.client_removeClient, h.wf.clients.mem_erase_iff, Set.mem_sdiff, ← h.present,
    Set.mem_singleton_iff, and_comm]

end Houses

/-! ## Requests -/

/-- The handler does to the rooms what the command does to the hall, with its answer. -/
def Performs (s : Hall) (p : ℕ) (c : Command)
    (handler : Except Fault (Response × RoomInterface)) : Prop :=
  ∃ rooms, handler = .ok (s.answer p c, rooms) ∧ Houses rooms (s.after p c)

namespace RequestProcesser

variable {rp : RequestProcesser} {rooms : RoomInterface} {request : Request} {s : Hall}

theorem createGame_table : rp.createGame rooms request = .ok (
    if rooms.isInRoom rp.playerId then (makeResponse .permissionDenied [], rooms)
    else
      match request.terms with
      | .error k => (formatError k, rooms)
      | .ok terms =>
        let created := rooms.createGame rp.playerId terms.name terms.viewerLimit terms.timeLimit
        (makeResponse .gameCreated [digits created.1], created.2)) := by
  by_cases hin : rooms.isInRoom rp.playerId
  · simp [createGame, hin]
  by_cases hlen : request.body.content.length = 4
  · obtain ⟨name, flag, viewers, limit, hbody⟩ :
        ∃ a b c d, request.body.content = [a, b, c, d] := by
      obtain ⟨name, rest, hbody⟩ := List.exists_cons_of_length_eq_add_one hlen
      obtain ⟨flag, viewers, limit, rfl⟩ := List.length_eq_three.1 (by simpa [hbody] using hlen)
      exact ⟨name, flag, viewers, limit, hbody⟩
    cases hviewers : stoi viewers with
    | error e => simp [createGame, Request.terms, hin, hbody, tryStoi_error hviewers, hviewers]
    | ok n =>
      cases hlimit : stoi limit with
      | error e =>
        simp [createGame, Request.terms, hin, hbody, tryStoi_ok hviewers, hviewers,
          tryStoi_error hlimit, hlimit]
      | ok l =>
        have hl := isTimeLimit_iff hlimit
        by_cases hbad : toSize l ≠ 0 ∧ toSize l ≠ 30 ∧ toSize l ≠ 90
        · have hl' : ¬(l = 0 ∨ l = 30 ∨ l = 90) := fun hgood => hl.2 hgood hbad
          simp [createGame, Request.terms, hin, hbody, tryStoi_ok hviewers, hviewers,
            tryStoi_ok hlimit, hlimit, hbad, hl']
        · have hl' : l = 0 ∨ l = 30 ∨ l = 90 := hl.1 hbad
          by_cases hflag : flag = lit "0" ∨ flag = lit "1"
          · have hone : flag = [0x30] ∨ flag = [0x31] := hflag
            simp only [Request.terms, hbody, hviewers, hlimit, hl', hflag]
            rcases hone with rfl | rfl <;>
              simp [createGame, hin, hbody, tryStoi_ok hviewers, tryStoi_ok hlimit, hbad]
          · have hnone : ¬(flag = [0x30] ∨ flag = [0x31]) := hflag
            simp only [Request.terms, hbody, hviewers, hlimit, hl', hflag]
            by_cases hone : flag.length = 1
            · obtain ⟨c, rfl⟩ := List.length_eq_one_iff.1 hone
              simp only [List.cons.injEq, and_true, not_or] at hnone
              simp [createGame, hin, hbody, tryStoi_ok hviewers, tryStoi_ok hlimit, hbad, hnone]
            · simp [createGame, hin, hbody, tryStoi_ok hviewers, tryStoi_ok hlimit, hbad, hone]
  · have hterms : request.terms = .error 0x01 := by
      unfold Request.terms
      split
      · rename_i hbody
        exact absurd (by rw [hbody]; rfl) hlen
      · rfl
    simp [createGame, hin, hlen, hterms]

variable (h : Houses rooms s)

include h

/-- An answer that changes nothing. -/
theorem performs_unchanged {p : ℕ} {c : Command} {handler : Except Fault (Response × RoomInterface)}
    (hafter : s.after p c = s) (hanswer : handler = .ok (s.answer p c, rooms)) :
    Performs s p c handler :=
  ⟨rooms, hanswer, hafter.symm ▸ h⟩

theorem connectUser_houses (hop : request.header.opCode = OpCode.clientConnect.code) :
    ∃ rp' rooms', rp.connectUser rooms request =
      .ok (s.answer rp.playerId request.command, rp', rooms') ∧
        Houses rooms' (s.after rp.playerId request.command) := by
  rw [connectUser_table]
  by_cases hlen : request.body.content.length = 1
  · have hcommand : request.command = .login := by simp [Request.command, hop, hlen]
    rw [hcommand, if_neg (not_not.2 hlen), Hall.answer, ← h.present]
    by_cases hmem : rp.playerId ∈ rooms.general.client
    · rw [if_pos hmem, if_pos hmem]
      exact ⟨_, _, rfl, h.login_of_mem hmem⟩
    · rw [if_neg hmem, if_neg hmem, h.wf.general]
      exact ⟨_, _, rfl, h.entered hmem⟩
  · have hcommand : request.command = .malformed 0x01 := by simp [Request.command, hop, hlen]
    rw [hcommand, if_pos hlen]
    exact ⟨_, _, rfl, h⟩

theorem sendMessage_performs (hop : request.header.opCode = OpCode.sendMessage.code) :
    Performs s rp.playerId request.command (rp.sendMessage rooms request) := by
  rw [sendMessage_table h.wf]
  cases hr : request.addressed 2 with
  | none =>
    have hcommand : request.command =
        .malformed (if request.body.content.length = 2 then 0x02 else 0x01) := by
      simp [Request.command, hop, hr]
    rw [hcommand]
    exact performs_unchanged h rfl rfl
  | some r =>
    have hcommand : request.command = .say r := by simp [Request.command, hop, hr]
    rw [hcommand]
    simp only [h.wf.general]
    by_cases hzero : r = 0
    · by_cases hmem : rp.playerId ∈ rooms.general.client
      · refine ⟨_, ?_, h.saidInGeneral rp.playerId (request.body.content.getD 1 [])⟩
        simp [Hall.answer, hzero, hmem, ← h.present]
      · exact performs_unchanged h rfl (by simp [Hall.answer, hzero, hmem, ← h.present])
    · rw [if_neg hzero]
      have hanswer : s.answer rp.playerId (.say r) = s.ask r fun _ => makeResponse .ok [] :=
        if_neg hzero
      rw [h.ask_eq] at hanswer
      cases hat : rooms.gameAt r with
      | none => exact performs_unchanged h rfl (by rw [hanswer, hat])
      | some g => exact ⟨_, by rw [hanswer, hat], h.said r _ _⟩

theorem leave_performs (hop : request.header.opCode = OpCode.leave.code) :
    Performs s rp.playerId request.command (.ok (rp.leave rooms)) := by
  have hcommand : request.command = .leave := by simp [Request.command, hop]
  have hleave : rp.leave rooms =
      (makeResponse .leaveSuccess [], (rooms.removeFromGame rp.playerId).2) := rfl
  rw [hcommand, hleave, h.wf.removeFromGame_eq_mapGame]
  exact ⟨_, rfl, h.left _⟩

theorem createGame_performs (hop : request.header.opCode = OpCode.createGame.code) :
    Performs s rp.playerId request.command (rp.createGame rooms request) := by
  have hcommand : request.command = .create request.terms := by simp [Request.command, hop]
  rw [hcommand, createGame_table]
  by_cases hfree : s.seats rp.playerId = none
  · have hin : ¬rooms.isInRoom rp.playerId := fun hin => h.isInRoom_iff.1 hin hfree
    rw [if_neg hin]
    cases hterms : request.terms with
    | error k => exact performs_unchanged h rfl (by simp [Hall.answer, hfree])
    | ok terms =>
      refine ⟨(rooms.createGame rp.playerId terms.name terms.viewerLimit terms.timeLimit).2, ?_, ?_⟩
      · rw [Hall.answer, if_neg (not_not.2 hfree), h.length_games]
        rfl
      · rw [Hall.after, if_pos hfree]
        exact h.created hfree terms
  · rw [if_pos (h.isInRoom_iff.2 hfree)]
    cases request.terms with
    | error k => exact performs_unchanged h rfl (by simp [Hall.answer, hfree])
    | ok terms => exact performs_unchanged h (if_neg hfree) (by simp [Hall.answer, hfree])

theorem joinGameRoom_performs (role : Role) (hop : request.header.opCode = (joinCode role).code) :
    Performs s rp.playerId request.command
      (rp.joinGameRoom rooms request (role = .player)) := by
  have hcommand : request.command = .join role (request.addressed 1) := by
    cases role <;> simp [Request.command, hop, joinCode]
  rw [hcommand, joinGameRoom_table h.wf]
  by_cases hfree : s.seats rp.playerId = none
  · have hin : ¬rooms.isInRoom rp.playerId := fun hin => h.isInRoom_iff.1 hin hfree
    rw [if_neg hin]
    cases hr : request.addressed 1 with
    | none => exact performs_unchanged h rfl (by simp [Hall.answer, hfree])
    | some r =>
      rw [Performs, Hall.answer, if_neg (not_not.2 hfree), Hall.after, ← h.map_gameAt]
      dsimp only
      rw [h.ask_eq]
      cases hat : rooms.gameAt r with
      | none => exact ⟨rooms, rfl, by simpa using h⟩
      | some g =>
        obtain ⟨hmem, rfl⟩ := gameAt_spec hat
        have hadmits := h.admits_iff hmem role
        by_cases hplace : g.hasPlace role
        · have hinformation := h.gameInformation_seat hmem hfree hplace
          refine ⟨rooms.mapGame (atGame g.roomId (·.seat rp.playerId role)), ?_, ?_⟩
          · simp only [hplace, if_true, hadmits.1 hplace, hinformation]
          · simpa [hfree, hadmits.1 hplace] using h.joined hmem hfree hplace
        · have hfull : ¬s.Admits g.roomId g.terms role := fun hadmit => hplace (hadmits.2 hadmit)
          refine ⟨rooms, ?_, ?_⟩
          · simp only [hplace, if_false, hfull]
            rfl
          · simpa [hfull] using h
  · rw [if_pos (h.isInRoom_iff.2 hfree)]
    cases request.addressed 1 with
    | none => exact performs_unchanged h rfl (by simp [Hall.answer, hfree])
    | some r =>
      exact performs_unchanged h (if_neg fun hadmit => hfree hadmit.1)
        (by simp [Hall.answer, hfree])

/-- A question about a game. -/
theorem askGame_performs {answer : GameInformation → Response} (command : ℕ → Command)
    (told : ℕ → Terms → Response) (hcommand : request.command = request.naming command)
    (hafter : ∀ r, s.after rp.playerId (command r) = s)
    (hask : ∀ r, s.answer rp.playerId (command r) = s.ask r (told r))
    (htold : ∀ g ∈ rooms.gameRoom, answer g.getGameInfo = told g.roomId g.terms) :
    Performs s rp.playerId request.command
      ((askGame rooms request answer).map fun resp => (resp, rooms)) := by
  rw [hcommand, askGame_table, Request.naming]
  cases hr : request.addressed 1 with
  | none => exact performs_unchanged h rfl rfl
  | some r =>
    refine performs_unchanged h (hafter r) ?_
    rw [hask, h.ask_eq]
    cases hat : rooms.gameAt r with
    | none => simp only [Except.map, hat]
    | some g =>
      obtain ⟨hmem, rfl⟩ := gameAt_spec hat
      simp only [Except.map, hat, htold g hmem]

theorem getPlayerNbr_performs (hop : request.header.opCode = OpCode.playerLoggedIn.code) :
    Performs s rp.playerId request.command
      ((getPlayerNbr rooms request).map fun resp => (resp, rooms)) := by
  refine askGame_performs h .countPlayers
    (fun r _ => makeResponse .playerNumber [digits (s.sitting r .player).ncard])
    (by simp [Request.command, hop]) (fun _ => rfl) (fun _ => rfl) fun g hg => ?_
  have hncard := h.ncard_sitting hg .player
  rw [hncard]
  rfl

theorem getGameStatus_performs (hop : request.header.opCode = OpCode.getGameStatus.code) :
    Performs s rp.playerId request.command
      ((getGameStatus rooms request).map fun resp => (resp, rooms)) := by
  refine askGame_performs h .askStatus
    (fun _ _ => makeResponse .gameStatus [digits GameStatus.new.toUnsigned])
    (by simp [Request.command, hop]) (fun _ => rfl) (fun _ => rfl) fun g hg => ?_
  rw [GameRoom.getGameInfo, h.status g hg]

/-- The list of the games is the list of their terms, counted from one. -/
theorem getGameInfo_eq : getGameInfo rooms =
    makeResponse .listGame ((s.games.zipIdx 1).flatMap fun x => [digits x.2, x.1.name]) := by
  have hzip : s.games.zipIdx 1 = rooms.gameRoom.map fun g => (g.terms, g.roomId) := by
    rw [List.zipIdx_eq_zip_range', h.length_games, ← h.wf.gameIds, ← h.games, List.zip_map']
  rw [hzip, getGameInfo, RoomInterface.getGameInfo, List.flatMap_map, List.flatMap_map]
  rfl

/-- Every request does to the rooms what its command does to the hall, with its answer. -/
theorem process_houses (rp : RequestProcesser) (request : Request) :
    ∃ rp' rooms', rp.process rooms request =
      .ok (s.answer rp.playerId request.command, rp', rooms') ∧
        Houses rooms' (s.after rp.playerId request.command) := by
  have hperforms {handler : Except Fault (Response × RoomInterface)}
      (hdoes : Performs s rp.playerId request.command handler)
      (hp : rp.process rooms request = handler.map fun r => (r.1, rp, r.2)) :
      ∃ rp' rooms', rp.process rooms request =
        .ok (s.answer rp.playerId request.command, rp', rooms') ∧
          Houses rooms' (s.after rp.playerId request.command) := by
    obtain ⟨rooms', rfl, hrooms'⟩ := hdoes
    exact ⟨rp, rooms', hp, hrooms'⟩
  cases hop : OpCode.ofCode request.header.opCode with
  | none =>
    have hcommand : request.command = .unknown := by simp [Request.command, hop]
    rw [hcommand]
    exact ⟨rp, rooms, by simp [process, hop, Hall.answer], h⟩
  | some op =>
    have hcode := OpCode.ofCode_eq_some_iff.1 hop
    cases op with
    | clientConnect =>
      have hprocess : rp.process rooms request = rp.connectUser rooms request := by
        simp [process, hop]
      exact hprocess ▸ connectUser_houses h hcode
    | sendMessage => exact hperforms (sendMessage_performs h hcode) (by simp [process, hop])
    | leave => exact hperforms (leave_performs h hcode) (by simp [process, hop, Except.map])
    | createGame => exact hperforms (createGame_performs h hcode) (by simp [process, hop])
    | joinAsPlayer =>
      exact hperforms (joinGameRoom_performs h .player hcode) (by simp [process, hop])
    | joinAsViewer =>
      exact hperforms (joinGameRoom_performs h .viewer hcode) (by simp [process, hop])
    | playerLoggedIn =>
      refine hperforms (getPlayerNbr_performs h hcode) ?_
      simp only [process, hop]
      cases getPlayerNbr rooms request <;> rfl
    | getGameStatus =>
      refine hperforms (getGameStatus_performs h hcode) ?_
      simp only [process, hop]
      cases getGameStatus rooms request <;> rfl
    | getGameInfo =>
      have hcommand : request.command = .listGames := by simp [Request.command, hop]
      rw [hcommand, Hall.answer, ← getGameInfo_eq h]
      exact ⟨rp, rooms, by simp [process, hop], h⟩
    | nbrPeopleLoggedIn =>
      have hcommand : request.command = .countClients := by simp [Request.command, hop]
      rw [hcommand, Hall.answer, h.ncard_present]
      exact ⟨rp, rooms, by simp [process, hop, getNbrClientConnected], h⟩
    | getNbrGameCreated =>
      have hcommand : request.command = .countGames := by simp [Request.command, hop]
      rw [hcommand, Hall.answer, h.length_games]
      exact ⟨rp, rooms, by simp [process, hop, getGameCreated, nbrGameCreated], h⟩
    | _ =>
      have hcommand : request.command = .unknown := by simp [Request.command, hop]
      rw [hcommand]
      exact ⟨rp, rooms, by simp [process, hop, Hall.answer], h⟩

end RequestProcesser

/-! ## Runs -/

/-- The lobby and the hall follow each other. -/
theorem bisimulation_hall : Machine.Bisimulation lobby hall fun l s => Houses l.rooms s := by
  refine .of_enabled Lobby.enabled Houses.new fun {l s e l' o} h hstep => ?_
  rcases Lobby.step_cases hstep with
    ⟨p, request, response, rp, rfl, rfl, hprocess, -⟩ | ⟨p, rfl, rfl, hrooms⟩
  · obtain ⟨rp', rooms', hprocess', h'⟩ := process_houses h (l.processer p) request
    obtain ⟨rfl, rfl, rfl⟩ : response = _ ∧ rp = rp' ∧ l'.rooms = rooms' := by
      simpa using hprocess.symm.trans hprocess'
    exact ⟨_, rfl, h'⟩
  · exact ⟨_, rfl, hrooms ▸ h.disconnected (l.processer p)⟩

/-- The lobby and the hall have the same traces : what any clients do, in any order, is
answered as the hall answers, and whatever a run of the hall answers, the lobby does. After
each run the rooms are those of the hall. -/
theorem lobby_iff_hall (tr : List (Lobby.Event × Option Response)) :
    ((∃ l, lobby.Run tr l) ↔ ∃ s, hall.Run tr s) ∧
      ∀ l s, lobby.Run tr l → hall.Run tr s → Houses l.rooms s := by
  refine ⟨bisimulation_hall.exists_run_iff tr, fun l s hl hs => ?_⟩
  obtain ⟨s', hs', h⟩ := bisimulation_hall.run hl
  exact hs'.unique hs ▸ h

/-- A request that asks for something to change : to log in, to leave, or for a game or a
seat, in a body that says which. -/
def Command.Changes : Command → Prop
  | .login | .leave | .create (.ok _) | .join _ (some _) => True
  | _ => False

theorem Command.after_eq {c : Command} (hc : ¬c.Changes) (s : Hall) (p : ℕ) : s.after p c = s := by
  cases c with
  | login | leave => exact absurd trivial hc
  | create terms =>
    cases terms with
    | error => rfl
    | ok => exact absurd trivial hc
  | join _ room =>
    cases room with
    | none => rfl
    | some => exact absurd trivial hc
  | say | listGames | countClients | countPlayers | countGames | askStatus | malformed | unknown =>
    rfl

/-- Events that are kept, whatever else is : the disconnections, and the requests that ask
for something to change. -/
def Lobby.Event.Matters : Lobby.Event → Prop
  | .disconnect _ => True
  | .request _ asked => asked.command.Changes

theorem quiet_hall {loud : Lobby.Event → Bool} (hloud : ∀ e, e.Matters → loud e) :
    hall.Quiet loud := by
  intro s e s' o hquiet hstep
  have hnot : ¬e.Matters := fun hmatters => by simp [hloud e hmatters] at hquiet
  cases e with
  | disconnect => exact absurd trivial hnot
  | request p request =>
    obtain ⟨rfl, -⟩ : s.after p request.command = s' ∧ _ = o := by
      simpa [hall, Hall.step] using hstep
    exact Command.after_eq hnot s p

/-- Messages, questions and malformed requests are not observable : two runs of the lobby
that differ in such events only, anywhere and in any number, give the same answers to all
others, and end in rooms of one hall. -/
theorem unobservable {loud : Lobby.Event → Bool} (hloud : ∀ e, e.Matters → loud e)
    {tr tr' : List (Lobby.Event × Option Response)} {l l' : Lobby} (h : lobby.Run tr l)
    (h' : lobby.Run tr' l')
    (hsame : (Machine.purge loud tr).map Prod.fst = (Machine.purge loud tr').map Prod.fst) :
    Machine.purge loud tr = Machine.purge loud tr' ∧
      ∃ s, Houses l.rooms s ∧ Houses l'.rooms s := by
  obtain ⟨s, hs, hhouses⟩ := bisimulation_hall.run h
  obtain ⟨s', hs', hhouses'⟩ := bisimulation_hall.run h'
  have hanswers := (quiet_hall hloud).answers_eq hs hs' hsame
  have hpurged := hs'.purge (quiet_hall hloud)
  rw [← hanswers] at hpurged
  rw [hpurged.unique (hs.purge (quiet_hall hloud))] at hhouses'
  exact ⟨hanswers, s, hhouses, hhouses'⟩

/-- The events that are not messages. -/
def Lobby.Event.notMessage : Lobby.Event → Bool
  | .disconnect _ => true
  | .request _ asked => asked.header.opCode ≠ OpCode.sendMessage.code

theorem notMessage_of_matters {e : Lobby.Event} (h : e.Matters) : e.notMessage := by
  cases e with
  | disconnect => rfl
  | request p request =>
    by_contra hop
    have hcode : request.header.opCode = OpCode.sendMessage.code := by
      simpa [Lobby.Event.notMessage] using hop
    have hchanges : request.command.Changes := h
    cases hr : request.addressed 2 <;>
      simp [Request.command, hcode, hr, Command.Changes] at hchanges

/-- A game with a message and without. -/
theorem unobservable_message : ∃ tr tr' l l', lobby.Run tr l ∧ lobby.Run tr' l' ∧
    tr.length = 3 ∧ Machine.purge Lobby.Event.notMessage tr =
      Machine.purge Lobby.Event.notMessage tr' ∧ ∃ s, Houses l.rooms s ∧ Houses l'.rooms s := by
  have hrun := Machine.run_of_isSome lobby
    [.request 1 (makeRequest .createGame [lit "duel", lit "1", lit "5", lit "30"]),
      .request 2 (makeRequest .sendMessage [lit "1", lit "hello"]),
      .request 2 (makeRequest .joinAsViewer [lit "1"])] (by decide +kernel)
  have hrun' := Machine.run_of_isSome lobby
    [.request 1 (makeRequest .createGame [lit "duel", lit "1", lit "5", lit "30"]),
      .request 2 (makeRequest .joinAsViewer [lit "1"])] (by decide +kernel)
  exact ⟨_, _, _, _, hrun, hrun', by decide +kernel,
    unobservable (fun _ => notMessage_of_matters) hrun hrun' (by decide +kernel)⟩

end SpaceBattle
