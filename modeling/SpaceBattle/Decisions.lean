import SpaceBattle.Chat

/-!
# The handlers as tables

With the exceptions of `stoi` caught, a handler is a table of a few tests : how many
strings the body has and what room id the first of them denotes (`Request.addressed`),
where the client sits, which game has the id. Each handler has its table here; in
well-formed rooms what it changes is the general room or one game room.
-/

namespace SpaceBattle

open Cpp RoomInterface

/-- The room id the first string of a body of `k` strings denotes. -/
def Request.addressed (request : Request) (k : ℕ) : Option ℕ :=
  if request.body.content.length = k then
    match stoi (request.body.content.headD []) with
    | .ok n => some (toSize n)
    | .error _ => none
  else none

theorem Request.addressed_one_eq_some_iff {request : Request} {r : ℕ} :
    request.addressed 1 = some r ↔
      ∃ text n, request.body.content = [text] ∧ stoi text = .ok n ∧ toSize n = r := by
  unfold addressed
  split
  · obtain ⟨text, hbody⟩ := List.length_eq_one_iff.1 ‹_›
    cases hn : stoi text <;> simp [hbody, hn]
  · rename_i hlen
    refine ⟨fun h => by simp at h, ?_⟩
    rintro ⟨text, n, hbody, -⟩
    exact absurd (by simp [hbody]) hlen

theorem Request.addressed_one_eq_none_iff {request : Request} :
    request.addressed 1 = none ↔
      ¬∃ text n, request.body.content = [text] ∧ stoi text = .ok n := by
  rw [Option.eq_none_iff_forall_ne_some]
  refine ⟨?_, fun hnone r hr => ?_⟩
  · rintro hnone ⟨text, n, hbody, hn⟩
    exact hnone _ (addressed_one_eq_some_iff.2 ⟨text, n, hbody, hn, rfl⟩)
  · obtain ⟨text, n, hbody, hn, -⟩ := addressed_one_eq_some_iff.1 hr
    exact hnone ⟨text, n, hbody, hn⟩

/-- The iterator of a game and the game. -/
theorem RoomInterface.map_value_getGame (rooms : RoomInterface) (r : ℕ) :
    (rooms.getGame r).map (·.value) = rooms.gameAt r :=
  map_value_findIf _ _

namespace RequestProcesser

variable {rp : RequestProcesser} {room : RoomInterface} {request : Request}

/-! ## The tables -/

theorem connectUser_table : rp.connectUser room request = .ok (
    if request.body.content.length ≠ 1 then (formatError 0x01, rp, room)
    else if rp.playerId ∈ room.general.client then
      (makeResponse .clientAlreadyInRoom [], rp, room)
    else
      (makeResponse .clientConnected [digits rp.playerId, digits room.general.roomId],
        { rp with nickname := request.body.content.headD [] },
        { room with general := room.general.enter rp.playerId })) := by
  by_cases hlen : request.body.content.length = 1
  · obtain ⟨nickname, hbody⟩ := List.length_eq_one_iff.1 hlen
    by_cases hmem : rp.playerId ∈ room.general.client <;>
      simp [connectUser, hbody, insertOnGeneralRoom, GeneralRoom.insertClient_eq, hmem]
  · simp [connectUser, hlen]

theorem sendMessage_table (wf : room.WellFormed) : rp.sendMessage room request = .ok (
    match request.addressed 2 with
    | none => (formatError (if request.body.content.length = 2 then 0x02 else 0x01), room)
    | some r =>
      let message := request.body.content.getD 1 []
      if r = room.general.roomId then
        if rp.playerId ∈ room.general.client then
          (makeResponse .ok [], { room with general := room.general.say rp.playerId message })
        else (makeResponse .permissionDenied [], room)
      else
        match room.gameAt r with
        | none => (makeResponse .roomNotFound [], room)
        | some _ =>
          (makeResponse .ok [], room.mapGame (atGame r (·.say rp.playerId message)))) := by
  by_cases hlen : request.body.content.length = 2
  · obtain ⟨roomText, message, hbody⟩ := List.length_eq_two.1 hlen
    cases hroom : stoi roomText with
    | error e => simp [sendMessage, Request.addressed, hbody, tryStoi_error hroom, hroom]
    | ok n =>
      rw [sendMessage_eq hbody hroom]
      by_cases hid : toSize n = room.general.roomId
      · by_cases hmem : rp.playerId ∈ room.general.client <;>
          simp [Request.addressed, hbody, hroom, RoomInterface.sendMessage, hid,
            GeneralRoom.sendMessage_eq, hmem]
      · have hat := map_value_getGame room (toSize n)
        cases hit : room.getGame (toSize n) with
        | none =>
          rw [hit] at hat
          rw [getGame] at hit
          simp [Request.addressed, hbody, hroom, RoomInterface.sendMessage, hid, hit, ← hat]
        | some it =>
          have hassign := wf.assign_eq_mapGame hit (·.say rp.playerId message)
          rw [hit] at hat
          rw [getGame] at hit
          simp [Request.addressed, hbody, hroom, RoomInterface.sendMessage, hid, hit, ← hat,
            GameRoom.sendMessage_eq, hassign]
  · simp [sendMessage, Request.addressed, hlen]

theorem askGame_table (answer : GameInformation → Response) :
    askGame room request answer = .ok (
      match request.addressed 1 with
      | none => formatError 0x01
      | some r =>
        match room.gameAt r with
        | none => makeResponse .roomNotFound []
        | some g => answer g.getGameInfo) := by
  by_cases hlen : request.body.content.length = 1
  · obtain ⟨gameText, hbody⟩ := List.length_eq_one_iff.1 hlen
    cases hgame : stoi gameText with
    | error e => simp [askGame, Request.addressed, hbody, tryStoi_error hgame, hgame]
    | ok n =>
      rw [show request.addressed 1 = some (toSize n) by simp [Request.addressed, hbody, hgame]]
      cases hit : room.getGame (toSize n) <;>
        simp [askGame, hbody, tryStoi_ok hgame, hit, ← map_value_getGame]
  · simp [askGame, Request.addressed, hlen]

theorem joinGameRoom_table (wf : room.WellFormed) (role : Role) :
    rp.joinGameRoom room request (role = .player) = .ok (
      if room.isInRoom rp.playerId then (makeResponse .permissionDenied [], room)
      else
        match request.addressed 1 with
        | none => (formatError 0x01, room)
        | some r =>
          match room.gameAt r with
          | none => (makeResponse .roomNotFound [], room)
          | some g =>
            if g.hasPlace role then
              (makeResponse .clientJoinGame
                (gameInformation (g.seat rp.playerId role).getGameInfo),
                room.mapGame (atGame r (·.seat rp.playerId role)))
            else (makeResponse .tooManyClients [], room)) := by
  by_cases hin : room.isInRoom rp.playerId
  · simp [joinGameRoom, hin]
  by_cases hlen : request.body.content.length = 1
  · obtain ⟨roomText, hbody⟩ := List.length_eq_one_iff.1 hlen
    cases hroom : stoi roomText with
    | error e => simp [joinGameRoom, Request.addressed, hin, hbody, tryStoi_error hroom, hroom]
    | ok n =>
      rw [show request.addressed 1 = some (toSize n) by simp [Request.addressed, hbody, hroom]]
      cases hit : room.getGame (toSize n) with
      | none =>
        simp [joinGameRoom, hin, hbody, tryStoi_ok hroom, hit, ← map_value_getGame]
      | some it =>
        have hassign := wf.assign_eq_mapGame hit (·.seat rp.playerId role)
        rw [joinGameRoom_eq role hbody hroom hin hit, hassign]
        by_cases hplace : it.value.hasPlace role <;>
          simp [hin, hit, ← map_value_getGame, hplace]
  · simp [joinGameRoom, Request.addressed, hin, hlen]

/-! ## `process`, by its operation -/

/-- A free client that asks for a game gets the one it describes, or a `FORMAT_ERROR`. -/
theorem process_createGame_cases (rp : RequestProcesser)
    (hop : request.header.opCode = OpCode.createGame.code) (hfree : ¬room.isInRoom rp.playerId) :
    (∃ name flag n l, request.Describes name flag n l ∧ rp.process room request =
      .ok (makeResponse .gameCreated
          [digits (room.createGame rp.playerId name (toSize n) (toSize l)).1], rp,
        (room.createGame rp.playerId name (toSize n) (toSize l)).2)) ∨
    (¬∃ name flag n l, request.Describes name flag n l) ∧
      ∃ k ≠ 0, rp.process room request = .ok (formatError k, rp, room) := by
  have hprocess : rp.process room request =
      (rp.createGame room request).map fun r => (r.1, rp, r.2) := by simp [process, hop]
  rcases createGame_cases request hfree with
    ⟨name, flag, n, l, hdescribes, h⟩ | ⟨hnone, k, hk, h⟩
  · exact Or.inl ⟨name, flag, n, l, hdescribes, by rw [hprocess, h]; rfl⟩
  · exact Or.inr ⟨hnone, k, hk, by rw [hprocess, h]; rfl⟩

theorem process_getGameInfo (hop : request.header.opCode = OpCode.getGameInfo.code) :
    rp.process room request = .ok (getGameInfo room, rp, room) := by
  simp [process, hop]

theorem process_getGameCreated (hop : request.header.opCode = OpCode.getNbrGameCreated.code) :
    rp.process room request = .ok (getGameCreated room, rp, room) := by
  simp [process, hop]

theorem process_getPlayerNbr (hop : request.header.opCode = OpCode.playerLoggedIn.code) {r : ℕ}
    (hr : request.addressed 1 = some r) {g : GameRoom} (hg : room.gameAt r = some g) :
    rp.process room request =
      .ok (makeResponse .playerNumber [digits g.playerIds.length], rp, room) := by
  simp [process, hop, getPlayerNbr, askGame_table, hr, hg, Except.map, GameRoom.getGameInfo]

theorem process_getGameStatus (hop : request.header.opCode = OpCode.getGameStatus.code) {r : ℕ}
    (hr : request.addressed 1 = some r) {g : GameRoom} (hg : room.gameAt r = some g) :
    rp.process room request =
      .ok (makeResponse .gameStatus [digits g.roomStatus.toUnsigned], rp, room) := by
  simp [process, hop, getGameStatus, askGame_table, hr, hg, Except.map, GameRoom.getGameInfo]

theorem process_joinGameRoom (rp : RequestProcesser) (room : RoomInterface) {role : Role}
    (hop : request.header.opCode = (joinCode role).code) :
    rp.process room request =
      (rp.joinGameRoom room request (role = .player)).map fun r => (r.1, rp, r.2) := by
  cases role <;> simp [process, hop, joinCode]

end RequestProcesser

/-! ## Steps -/

namespace Lobby

open RequestProcesser

/-- A request that is answered without a change leaves the state as it is. -/
theorem step_answer {s : Lobby} {p : ℕ} {request : Request} {response : Response}
    (h : (s.processer p).process s.rooms request = .ok (response, s.processer p, s.rooms)) :
    lobby.step s (.request p request) = some (s, some response) := by
  rw [step_of_process h]
  simp [processer]

theorem step_join {s : Lobby} (wf : s.rooms.WellFormed) {p : ℕ} {request : Request} (role : Role)
    (hop : request.header.opCode = (joinCode role).code) :
    lobby.step s (.request p request) = some (
      if s.rooms.isInRoom p then (s, some (makeResponse .permissionDenied []))
      else
        match request.addressed 1 with
        | none => (s, some (formatError 0x01))
        | some r =>
          match s.rooms.gameAt r with
          | none => (s, some (makeResponse .roomNotFound []))
          | some g =>
            if g.hasPlace role then
              ({ s with rooms := s.rooms.mapGame (atGame r (·.seat p role)) },
                some (makeResponse .clientJoinGame (gameInformation (g.seat p role).getGameInfo)))
            else (s, some (makeResponse .tooManyClients []))) := by
  have hprocess := process_joinGameRoom (s.processer p) s.rooms hop
  rw [joinGameRoom_table wf role, Except.map, playerId_processer] at hprocess
  rw [step_of_process hprocess]
  simp only [processer, Function.update_eq_self]
  cases request.addressed 1 with
  | none => split <;> rfl
  | some r =>
    cases hat : s.rooms.gameAt r with
    | none => split <;> simp only [hat]
    | some g =>
      simp only [hat]
      split
      · rfl
      · split <;> rfl

end Lobby

end SpaceBattle
