import SpaceBattle.Rooms
import SpaceBattle.Message

/-!
# Request processing

One `RequestProcesser` serves one client. Its handlers check the body, read the numbers
in it with `stoi`, and call the room interface; `process` picks the handler by the
operation code and refuses every other code.

`Outcome` lists what a request can do, with the guards its handler checked : six ways to
change the rooms, each with its answer, and the answers that change nothing.
`process_outcome` : every request has an outcome, so no exception leaves `process` and
no handler reads a string that is not there. Every later fact about a step goes through
it, or through the two exact answers `process_sendMessage` and `process_join`.
-/

namespace SpaceBattle

open Cpp

/-- `RequestProcesser` : the client it serves. -/
structure RequestProcesser where
  playerId : ℕ
  nickname : Str
  deriving DecidableEq

/-- The body has the four strings of a game as `create_game` takes them : a name, a flag, a
number of viewers and a time limit. -/
def Request.Describes (request : Request) (name flag : Str) (n l : ℤ) : Prop :=
  ∃ viewers limit, request.body.content = [name, flag, viewers, limit] ∧
    stoi viewers = .ok n ∧ stoi limit = .ok l ∧ (flag = [0x30] ∨ flag = [0x31]) ∧
    (l = 0 ∨ l = 30 ∨ l = 90)

namespace RequestProcesser

/-! ## The handlers -/

/-- The refusals for a malformed body, with the number of the argument at fault. -/
def formatError (argument : UInt8) : Response :=
  makeResponse .formatError [[argument]]

def connectUser (rp : RequestProcesser) (room : RoomInterface) (request : Request) :
    Except Fault (Response × RequestProcesser × RoomInterface) :=
  let bodyContent := request.body.content
  if bodyContent.length ≠ 1 then .ok (formatError 0x01, rp, room)
  else
    let (roomInfo, room) := room.insertOnGeneralRoom rp.playerId
    if roomInfo.statusCode = .clientAlreadyInRoom then
      .ok (makeResponse .clientAlreadyInRoom [], rp, room)
    else do
      let nickname ← index bodyContent 0
      let roomIdStr := digits roomInfo.roomId
      let playerIdStr := digits rp.playerId
      .ok (makeResponse .clientConnected [playerIdStr, roomIdStr],
        { rp with nickname := nickname }, room)

def sendMessage (rp : RequestProcesser) (room : RoomInterface) (request : Request) :
    Except Fault (Response × RoomInterface) := do
  let bodyContent := request.body.content
  if bodyContent.length ≠ 2 then .ok (formatError 0x01, room)
  else
    tryStoi (← index bodyContent 0) (formatError 0x02, room) fun roomId => do
      let message ← index bodyContent 1
      let (statusCode, room) := room.sendMessage (toSize roomId) rp.playerId message
      .ok (makeResponse statusCode [], room)

def leave (rp : RequestProcesser) (room : RoomInterface) : Response × RoomInterface :=
  let (_, room) := room.removeFromGame rp.playerId
  (makeResponse .leaveSuccess [], room)

def createGame (rp : RequestProcesser) (room : RoomInterface) (request : Request) :
    Except Fault (Response × RoomInterface) := do
  let bodyContent := request.body.content
  if room.isInRoom rp.playerId then .ok (makeResponse .permissionDenied [], room)
  else if bodyContent.length ≠ 4 then .ok (formatError 0x01, room)
  else
    let gameName ← index bodyContent 0
    tryStoi (← index bodyContent 2) (formatError 0x02, room) fun n => do
      let nbrViewer := toSize n
      tryStoi (← index bodyContent 3) (formatError 0x04, room) fun n => do
        let limitOfTime := toSize n
        if limitOfTime ≠ 0 ∧ limitOfTime ≠ 30 ∧ limitOfTime ≠ 90 then
          .ok (formatError 0x04, room)
        else
          let hasViewer ← index bodyContent 1
          if hasViewer.length ≠ 1 then .ok (formatError 0x03, room)
          else
            let flag ← index hasViewer 0
            if flag ≠ 0x31 ∧ flag ≠ 0x30 then .ok (formatError 0x03, room)
            else
              -- both characters are non-zero : the number of viewers is taken for either
              let (idRoom, room) := room.createGame rp.playerId gameName
                (if flag ≠ 0 then nbrViewer else 0) limitOfTime
              .ok (makeResponse .gameCreated [digits idRoom], room)

def getGameInfo (room : RoomInterface) : Response :=
  let gameInfos := room.getGameInfo
  makeResponse .listGame (gameInfos.flatMap fun it => [digits it.roomId, it.name])

def getNbrClientConnected (room : RoomInterface) : Response :=
  makeResponse .numberClientConnected [digits room.getClientConnected]

/-- What a client that joined a game is told about it. -/
def gameInformation (info : GameInformation) : List Str :=
  [info.name, digits info.viewerLimit, digits info.nbrPlayer, digits info.timeLimit,
    digits info.status.toUnsigned]

def joinGameRoom (rp : RequestProcesser) (room : RoomInterface) (request : Request)
    (playerInsert : Bool) : Except Fault (Response × RoomInterface) := do
  let isInRoom := room.isInRoom rp.playerId
  if isInRoom then .ok (makeResponse .permissionDenied [], room)
  else
    let bodyContent := request.body.content
    if bodyContent.length ≠ 1 then .ok (formatError 0x01, room)
    else
      tryStoi (← index bodyContent 0) (formatError 0x01, room) fun gameId =>
        match room.getGame (toSize gameId) with
        | none => .ok (makeResponse .roomNotFound [], room)
        | some gameRoomIt =>
          let (statusCode, game) :=
            if playerInsert then gameRoomIt.value.insertPlayer rp.playerId
            else gameRoomIt.value.insertViewer rp.playerId
          let gameRoomIt := gameRoomIt.assign game
          let room := { room with gameRoom := gameRoomIt.toVector }
          if statusCode = .clientJoinGame then
            .ok (makeResponse .clientJoinGame (gameInformation gameRoomIt.value.getGameInfo), room)
          else .ok (makeResponse .tooManyClients [], room)

/-- The common shape of the two questions about one game. -/
def askGame (room : RoomInterface) (request : Request) (answer : GameInformation → Response) :
    Except Fault Response := do
  let bodyContent := request.body.content
  if bodyContent.length ≠ 1 then .ok (formatError 0x01)
  else
    tryStoi (← index bodyContent 0) (formatError 0x01) fun gameId =>
      match room.getGame (toSize gameId) with
      | none => .ok (makeResponse .roomNotFound [])
      | some gameRoomIt => .ok (answer gameRoomIt.value.getGameInfo)

def getPlayerNbr (room : RoomInterface) (request : Request) : Except Fault Response :=
  askGame room request fun info => makeResponse .playerNumber [digits info.nbrPlayer]

def getGameCreated (room : RoomInterface) : Response :=
  makeResponse .numberOfGame [digits room.nbrGameCreated]

def getGameStatus (room : RoomInterface) (request : Request) : Except Fault Response :=
  askGame room request fun info => makeResponse .gameStatus [digits info.status.toUnsigned]

/-- `RequestProcesser::process`. -/
def process (rp : RequestProcesser) (room : RoomInterface) (request : Request) :
    Except Fault (Response × RequestProcesser × RoomInterface) :=
  let changeRoom : Response × RoomInterface → Response × RequestProcesser × RoomInterface :=
    fun r => (r.1, rp, r.2)
  let changeNothing : Response → Response × RequestProcesser × RoomInterface :=
    fun r => (r, rp, room)
  match OpCode.ofCode request.header.opCode with
  | some .clientConnect => rp.connectUser room request
  | some .sendMessage => (rp.sendMessage room request).map changeRoom
  | some .leave => .ok (changeRoom (rp.leave room))
  | some .createGame => (rp.createGame room request).map changeRoom
  | some .getGameInfo => .ok (changeNothing (getGameInfo room))
  | some .nbrPeopleLoggedIn => .ok (changeNothing (getNbrClientConnected room))
  | some .joinAsPlayer => (rp.joinGameRoom room request true).map changeRoom
  | some .joinAsViewer => (rp.joinGameRoom room request false).map changeRoom
  | some .playerLoggedIn => (getPlayerNbr room request).map changeNothing
  | some .getNbrGameCreated => .ok (changeNothing (getGameCreated room))
  | some .getGameStatus => (getGameStatus room request).map changeNothing
  | _ => .ok (changeNothing
      (makeResponse .permissionDenied [lit "tes", lit "vraiment", lit "trop", lit "con"]))

/-- `RequestProcesser::remove_from_room`. -/
def removeFromRoom (rp : RequestProcesser) (room : RoomInterface) : RoomInterface :=
  let (_, room) := room.removeFromGeneral rp.playerId
  let (_, room) := room.removeFromGame rp.playerId
  room

/-! ## Outcomes -/

/-- The operation that asks for a seat in the role. -/
def joinCode : Role → OpCode
  | .player => .joinAsPlayer
  | .viewer => .joinAsViewer

/-- The statuses that report a change of the rooms. -/
def reportsChange (code : StatusCode) : Bool :=
  code ∈ [.ok, .clientConnected, .gameCreated, .clientJoinGame, .leaveSuccess]

theorem ne_of_reportsChange {code code' : StatusCode} (h : reportsChange code = false)
    (h' : reportsChange code' = true) : code ≠ code' := by
  rintro rfl
  exact Bool.false_ne_true (h.symm.trans h')

/-- A string of an answer : one the server wrote, without a NUL, or the name of a game. -/
def Text (room : RoomInterface) (s : Str) : Prop :=
  0 ∉ s ∨ ∃ g ∈ room.gameRoom, s = g.name

/-- What a request can do : the answer, and the client and the rooms after it. -/
inductive Outcome (rp : RequestProcesser) (room : RoomInterface) (request : Request) :
    Response → RequestProcesser → RoomInterface → Prop
  | connected {nickname : Str} (hop : request.header.opCode = OpCode.clientConnect.code)
      (hbody : request.body.content = [nickname]) (hnew : rp.playerId ∉ room.general.client) :
      Outcome rp room request
        (makeResponse .clientConnected [digits rp.playerId, digits room.general.roomId])
        { rp with nickname := nickname }
        { room with general := room.general.enter rp.playerId }
  | saidInGeneral {roomText message : Str} {n : ℤ}
      (hop : request.header.opCode = OpCode.sendMessage.code)
      (hbody : request.body.content = [roomText, message]) (hroom : stoi roomText = .ok n)
      (hid : toSize n = room.general.roomId) (hmem : rp.playerId ∈ room.general.client) :
      Outcome rp room request (makeResponse .ok []) rp
        { room with general := room.general.say rp.playerId message }
  | saidInGame {roomText message : Str} {n : ℤ} {it : Iterator GameRoom}
      (hop : request.header.opCode = OpCode.sendMessage.code)
      (hbody : request.body.content = [roomText, message]) (hroom : stoi roomText = .ok n)
      (hid : toSize n ≠ room.general.roomId) (hit : room.getGame (toSize n) = some it) :
      Outcome rp room request (makeResponse .ok []) rp
        { room with gameRoom := (it.assign (it.value.say rp.playerId message)).toVector }
  | left (hop : request.header.opCode = OpCode.leave.code) :
      Outcome rp room request (makeResponse .leaveSuccess []) rp
        (room.removeFromGame rp.playerId).2
  | created (name : Str) (nbrViewer limitOfTime : ℕ)
      (hop : request.header.opCode = OpCode.createGame.code)
      (hfree : ¬room.isInRoom rp.playerId) (hname : name ∈ request.body.content) :
      Outcome rp room request
        (makeResponse .gameCreated
          [digits (room.createGame rp.playerId name nbrViewer limitOfTime).1]) rp
        (room.createGame rp.playerId name nbrViewer limitOfTime).2
  | joined {role : Role} {roomText : Str} {n : ℤ} {it : Iterator GameRoom}
      (hop : request.header.opCode = (joinCode role).code)
      (hbody : request.body.content = [roomText]) (hroom : stoi roomText = .ok n)
      (hfree : ¬room.isInRoom rp.playerId) (hit : room.getGame (toSize n) = some it)
      (hplace : it.value.hasPlace role) :
      Outcome rp room request
        (makeResponse .clientJoinGame
          (gameInformation (it.value.seat rp.playerId role).getGameInfo)) rp
        { room with gameRoom := (it.assign (it.value.seat rp.playerId role)).toVector }
  | unchanged {code : StatusCode} {body : List Str} (hcode : reportsChange code = false)
      (hbody : ∀ s ∈ body, Text room s) :
      Outcome rp room request (makeResponse code body) rp room

section

variable {rp : RequestProcesser} {room : RoomInterface} {request : Request}

/-! ## Every request has an outcome -/

theorem text_digits (n : ℕ) : Text room (digits n) :=
  Or.inl (zero_notMem_digits n)

theorem outcome_formatError (k : UInt8) (hk : k ≠ 0) :
    Outcome rp room request (formatError k) rp room :=
  .unchanged rfl fun s hs => Or.inl (by simpa [List.mem_singleton.1 hs] using hk.symm)

theorem outcome_refused (code : StatusCode) (hcode : reportsChange code = false) :
    Outcome rp room request (makeResponse code []) rp room :=
  .unchanged hcode (by simp)

theorem outcome_number (code : StatusCode) (hcode : reportsChange code = false) (n : ℕ) :
    Outcome rp room request (makeResponse code [digits n]) rp room :=
  .unchanged hcode fun s hs => by simpa [List.mem_singleton.1 hs] using text_digits n

theorem connectUser_outcome (hop : request.header.opCode = OpCode.clientConnect.code) :
    ∃ resp rp' room', rp.connectUser room request = .ok (resp, rp', room') ∧
      Outcome rp room request resp rp' room' := by
  by_cases hlen : request.body.content.length = 1
  · obtain ⟨nickname, hbody⟩ := List.length_eq_one_iff.1 hlen
    by_cases hmem : rp.playerId ∈ room.general.client
    · refine ⟨_, _, _, ?_, outcome_refused .clientAlreadyInRoom rfl⟩
      simp [connectUser, hbody, RoomInterface.insertOnGeneralRoom, GeneralRoom.insertClient_eq,
        hmem]
    · refine ⟨_, _, _, ?_, .connected hop hbody hmem⟩
      simp [connectUser, hbody, RoomInterface.insertOnGeneralRoom, GeneralRoom.insertClient_eq,
        hmem]
  · refine ⟨_, _, _, ?_, outcome_formatError 0x01 (by decide)⟩
    simp [connectUser, hlen]

/-- The answer to a message with a room number. -/
theorem sendMessage_eq {roomText message : Str} {n : ℤ}
    (hbody : request.body.content = [roomText, message]) (hroom : stoi roomText = .ok n) :
    rp.sendMessage room request =
      .ok (makeResponse (room.sendMessage (toSize n) rp.playerId message).1 [],
        (room.sendMessage (toSize n) rp.playerId message).2) := by
  simp [sendMessage, hbody, tryStoi_ok hroom]

theorem sendMessage_outcome (hop : request.header.opCode = OpCode.sendMessage.code) :
    ∃ resp room', rp.sendMessage room request = .ok (resp, room') ∧
      Outcome rp room request resp rp room' := by
  by_cases hlen : request.body.content.length = 2
  · obtain ⟨roomText, message, hbody⟩ := List.length_eq_two.1 hlen
    cases hroom : stoi roomText with
    | error e =>
      refine ⟨_, _, ?_, outcome_formatError 0x02 (by decide)⟩
      simp [sendMessage, hbody, tryStoi_error hroom]
    | ok n =>
      refine ⟨_, _, sendMessage_eq hbody hroom, ?_⟩
      by_cases hid : toSize n = room.general.roomId
      · by_cases hmem : rp.playerId ∈ room.general.client
        · simpa [RoomInterface.sendMessage, hid, GeneralRoom.sendMessage_eq, hmem] using
            Outcome.saidInGeneral hop hbody hroom hid hmem
        · simpa [RoomInterface.sendMessage, hid, GeneralRoom.sendMessage_eq, hmem] using
            outcome_refused .permissionDenied rfl
      · cases hit : room.getGame (toSize n) with
        | none =>
          simp only [RoomInterface.getGame] at hit
          simpa [RoomInterface.sendMessage, hid, hit] using
            outcome_refused .roomNotFound rfl
        | some it =>
          have hsaid : Outcome rp room request _ rp _ := .saidInGame hop hbody hroom hid hit
          simp only [RoomInterface.getGame] at hit
          simpa [RoomInterface.sendMessage, hid, hit, GameRoom.sendMessage_eq] using hsaid
  · refine ⟨_, _, ?_, outcome_formatError 0x01 (by decide)⟩
    simp [sendMessage, hlen]

theorem toSize_eq_of_isInt {n : ℤ} {k : ℕ} (h : IsInt n) (hk : k < 2 ^ 31) :
    toSize n = k ↔ n = k := by
  obtain ⟨hlow, hhigh⟩ := h
  unfold toSize
  omega

/-- The numbers `create_game` takes for a time limit. -/
theorem isTimeLimit_iff {limit : Str} {l : ℤ} (hlimit : stoi limit = .ok l) :
    ¬(toSize l ≠ 0 ∧ toSize l ≠ 30 ∧ toSize l ≠ 90) ↔ l = 0 ∨ l = 30 ∨ l = 90 := by
  have hint := (stoi_eq_ok_iff.1 hlimit).2
  simp only [ne_eq, toSize_eq_of_isInt hint (show 0 < 2 ^ 31 by decide),
    toSize_eq_of_isInt hint (show 30 < 2 ^ 31 by decide),
    toSize_eq_of_isInt hint (show 90 < 2 ^ 31 by decide)]
  omega

/-- A free client gets the game its request describes, and a `FORMAT_ERROR` if the request
describes none. -/
theorem createGame_cases (request : Request) (hfree : ¬room.isInRoom rp.playerId) :
    (∃ name flag n l, request.Describes name flag n l ∧ rp.createGame room request =
      .ok (makeResponse .gameCreated
          [digits (room.createGame rp.playerId name (toSize n) (toSize l)).1],
        (room.createGame rp.playerId name (toSize n) (toSize l)).2)) ∨
    (¬∃ name flag n l, request.Describes name flag n l) ∧
      ∃ k ≠ 0, rp.createGame room request = .ok (formatError k, room) := by
  by_cases hlen : request.body.content.length = 4
  · obtain ⟨name, flag, viewers, limit, hbody⟩ :
        ∃ a b c d, request.body.content = [a, b, c, d] := by
      match request.body.content, hlen with
      | [a, b, c, d], _ => exact ⟨a, b, c, d, rfl⟩
    have hdescribes {P : Prop} (h : ∀ n l, stoi viewers = .ok n → stoi limit = .ok l →
        (flag = [0x30] ∨ flag = [0x31]) → l = 0 ∨ l = 30 ∨ l = 90 → P) :
        (∃ name flag n l, request.Describes name flag n l) → P := by
      rintro ⟨_, _, n, l, _, _, hbody', hviewers, hlimit, hflag, hl⟩
      rw [hbody] at hbody'
      simp only [List.cons.injEq, and_true] at hbody'
      obtain ⟨-, rfl, rfl, rfl⟩ := hbody'
      exact h n l hviewers hlimit hflag hl
    cases hviewers : stoi viewers with
    | error e =>
      refine Or.inr ⟨hdescribes fun n l hn => ?_, 0x02, by decide, ?_⟩
      · simp [hviewers] at hn
      · simp [createGame, hfree, hbody, tryStoi_error hviewers]
    | ok n =>
      cases hlimit : stoi limit with
      | error e =>
        refine Or.inr ⟨hdescribes fun n l _ hl => ?_, 0x04, by decide, ?_⟩
        · simp [hlimit] at hl
        · simp [createGame, hfree, hbody, tryStoi_ok hviewers, tryStoi_error hlimit]
      | ok l =>
        by_cases hbad : toSize l ≠ 0 ∧ toSize l ≠ 30 ∧ toSize l ≠ 90
        · refine Or.inr ⟨hdescribes fun n l' _ hl' _ hlimits => ?_, 0x04, by decide, ?_⟩
          · exact (isTimeLimit_iff hl').2 hlimits (Except.ok.inj (hlimit.symm.trans hl') ▸ hbad)
          · simp [createGame, hfree, hbody, tryStoi_ok hviewers, tryStoi_ok hlimit, hbad]
        · by_cases hflag : flag = [0x30] ∨ flag = [0x31]
          · refine Or.inl ⟨name, flag, n, l, ⟨viewers, limit, hbody, hviewers, hlimit, hflag,
              (isTimeLimit_iff hlimit).1 hbad⟩, ?_⟩
            rcases hflag with rfl | rfl <;>
              simp [createGame, hfree, hbody, tryStoi_ok hviewers, tryStoi_ok hlimit, hbad]
          · refine Or.inr ⟨hdescribes fun _ _ _ _ hflag' => absurd hflag' hflag, 0x03, by decide,
              ?_⟩
            by_cases hone : flag.length = 1
            · obtain ⟨c, rfl⟩ := List.length_eq_one_iff.1 hone
              simp only [List.cons.injEq, and_true, not_or] at hflag
              simp [createGame, hfree, hbody, tryStoi_ok hviewers, tryStoi_ok hlimit, hbad, hflag]
            · simp [createGame, hfree, hbody, tryStoi_ok hviewers, tryStoi_ok hlimit, hbad, hone]
  · refine Or.inr ⟨?_, 0x01, by decide, ?_⟩
    · rintro ⟨_, _, _, _, _, _, hbody, -⟩
      exact hlen (by rw [hbody]; rfl)
    · simp [createGame, hfree, hlen]

theorem createGame_outcome (hop : request.header.opCode = OpCode.createGame.code) :
    ∃ resp room', rp.createGame room request = .ok (resp, room') ∧
      Outcome rp room request resp rp room' := by
  by_cases hin : room.isInRoom rp.playerId
  · refine ⟨_, _, ?_, outcome_refused .permissionDenied rfl⟩
    simp [createGame, hin]
  rcases createGame_cases request hin with
    ⟨name, flag, n, l, hdescribes, h⟩ | ⟨-, k, hk, h⟩
  · obtain ⟨viewers, limit, hbody, -⟩ := hdescribes
    exact ⟨_, _, h, .created name (toSize n) (toSize l) hop hin (by simp [hbody])⟩
  · exact ⟨_, _, h, outcome_formatError k hk⟩

/-- The answer to a free client that names an existing game. -/
theorem joinGameRoom_eq (role : Role) {roomText : Str} {n : ℤ} {it : Iterator GameRoom}
    (hbody : request.body.content = [roomText]) (hroom : stoi roomText = .ok n)
    (hfree : ¬room.isInRoom rp.playerId) (hit : room.getGame (toSize n) = some it) :
    rp.joinGameRoom room request (role = .player) =
      if it.value.hasPlace role then
        .ok (makeResponse .clientJoinGame
            (gameInformation (it.value.seat rp.playerId role).getGameInfo),
          { room with gameRoom := (it.assign (it.value.seat rp.playerId role)).toVector })
      else .ok (makeResponse .tooManyClients [], room) := by
  have hvec : (it.assign it.value).toVector = room.gameRoom := (findIf_spec hit).1
  by_cases hplace : it.value.hasPlace role <;> cases role <;>
    simp [joinGameRoom, hfree, hbody, tryStoi_ok hroom, hit, GameRoom.insertPlayer_eq,
      GameRoom.insertViewer_eq, hplace, hvec]

theorem joinGameRoom_outcome (role : Role)
    (hop : request.header.opCode = (joinCode role).code) :
    ∃ resp room', rp.joinGameRoom room request (role = .player) = .ok (resp, room') ∧
      Outcome rp room request resp rp room' := by
  by_cases hin : room.isInRoom rp.playerId
  · refine ⟨_, _, ?_, outcome_refused .permissionDenied rfl⟩
    simp [joinGameRoom, hin]
  by_cases hlen : request.body.content.length = 1
  · obtain ⟨roomText, hbody⟩ := List.length_eq_one_iff.1 hlen
    cases hroom : stoi roomText with
    | error e =>
      refine ⟨_, _, ?_, outcome_formatError 0x01 (by decide)⟩
      simp [joinGameRoom, hin, hbody, tryStoi_error hroom]
    | ok n =>
      cases hit : room.getGame (toSize n) with
      | none =>
        refine ⟨_, _, ?_, outcome_refused .roomNotFound rfl⟩
        simp [joinGameRoom, hin, hbody, tryStoi_ok hroom, hit]
      | some it =>
        by_cases hplace : it.value.hasPlace role
        · refine ⟨_, _, ?_, Outcome.joined hop hbody hroom hin hit hplace⟩
          rw [joinGameRoom_eq role hbody hroom hin hit, if_pos hplace]
        · refine ⟨_, _, ?_, outcome_refused .tooManyClients rfl⟩
          rw [joinGameRoom_eq role hbody hroom hin hit, if_neg hplace]
  · refine ⟨_, _, ?_, outcome_formatError 0x01 (by decide)⟩
    simp [joinGameRoom, hin, hlen]

theorem askGame_outcome (code : StatusCode) (hcode : reportsChange code = false)
    (answer : GameInformation → ℕ) : ∃ resp,
      askGame room request (fun info => makeResponse code [digits (answer info)]) = .ok resp ∧
        Outcome rp room request resp rp room := by
  by_cases hlen : request.body.content.length = 1
  · obtain ⟨gameText, hbody⟩ := List.length_eq_one_iff.1 hlen
    cases hgame : stoi gameText with
    | error e =>
      refine ⟨_, ?_, outcome_formatError 0x01 (by decide)⟩
      simp [askGame, hbody, tryStoi_error hgame]
    | ok n =>
      cases hit : room.getGame (toSize n) with
      | none =>
        refine ⟨_, ?_, outcome_refused .roomNotFound rfl⟩
        simp [askGame, hbody, tryStoi_ok hgame, hit]
      | some it =>
        refine ⟨_, ?_, outcome_number code hcode (answer it.value.getGameInfo)⟩
        simp [askGame, hbody, tryStoi_ok hgame, hit]
  · refine ⟨_, ?_, outcome_formatError 0x01 (by decide)⟩
    simp [askGame, hlen]

theorem getGameInfo_outcome : Outcome rp room request (getGameInfo room) rp room := by
  refine .unchanged rfl fun s hs => ?_
  simp only [RoomInterface.getGameInfo, List.mem_flatMap, List.mem_map, GameRoom.getRoomInfo] at hs
  obtain ⟨-, ⟨g, hg, rfl⟩, hs⟩ := hs
  rcases List.mem_cons.1 hs with rfl | hs
  · exact text_digits _
  · exact Or.inr ⟨g, hg, List.mem_singleton.1 hs⟩

theorem outcome_of_changeRoom {handler : Except Fault (Response × RoomInterface)}
    (h : ∃ resp room', handler = .ok (resp, room') ∧ Outcome rp room request resp rp room')
    (hp : rp.process room request = handler.map fun r => (r.1, rp, r.2)) :
    ∃ resp rp' room', rp.process room request = .ok (resp, rp', room') ∧
      Outcome rp room request resp rp' room' := by
  obtain ⟨resp, room', rfl, ho⟩ := h
  exact ⟨resp, rp, room', hp, ho⟩

theorem outcome_of_changeNothing {handler : Except Fault Response}
    (h : ∃ resp, handler = .ok resp ∧ Outcome rp room request resp rp room)
    (hp : rp.process room request = handler.map fun r => (r, rp, room)) :
    ∃ resp rp' room', rp.process room request = .ok (resp, rp', room') ∧
      Outcome rp room request resp rp' room' := by
  obtain ⟨resp, rfl, ho⟩ := h
  exact ⟨resp, rp, room, hp, ho⟩

end

/-- Every request has an outcome : `process` returns, whatever the rooms and the
request are. -/
theorem process_outcome (rp : RequestProcesser) (room : RoomInterface) (request : Request) :
    ∃ resp rp' room', rp.process room request = .ok (resp, rp', room') ∧
      Outcome rp room request resp rp' room' := by
  have hdenied : Outcome rp room request
      (makeResponse .permissionDenied [lit "tes", lit "vraiment", lit "trop", lit "con"]) rp room :=
    .unchanged rfl fun s hs => Or.inl (by revert s; decide)
  cases hop : OpCode.ofCode request.header.opCode with
  | none => exact ⟨_, rp, room, by simp [process, hop], hdenied⟩
  | some op =>
    have hcode := OpCode.ofCode_eq_some_iff.1 hop
    cases op with
    | clientConnect =>
      have hprocess : rp.process room request = rp.connectUser room request := by
        simp [process, hop]
      exact hprocess ▸ connectUser_outcome hcode
    | sendMessage =>
      exact outcome_of_changeRoom (sendMessage_outcome hcode) (by simp [process, hop])
    | leave => exact ⟨_, rp, _, by simp [process, hop, leave], .left hcode⟩
    | createGame => exact outcome_of_changeRoom (createGame_outcome hcode) (by simp [process, hop])
    | joinAsPlayer =>
      exact outcome_of_changeRoom (joinGameRoom_outcome .player hcode)
        (by simp [process, hop])
    | joinAsViewer =>
      exact outcome_of_changeRoom (joinGameRoom_outcome .viewer hcode)
        (by simp [process, hop])
    | getGameInfo => exact ⟨_, rp, room, by simp [process, hop], getGameInfo_outcome⟩
    | nbrPeopleLoggedIn =>
      exact ⟨_, rp, room, by simp [process, hop, getNbrClientConnected],
        outcome_number .numberClientConnected rfl room.getClientConnected⟩
    | playerLoggedIn =>
      exact outcome_of_changeNothing (askGame_outcome .playerNumber rfl (·.nbrPlayer))
        (by simp [process, hop, getPlayerNbr])
    | getNbrGameCreated =>
      exact ⟨_, rp, room, by simp [process, hop, getGameCreated],
        outcome_number .numberOfGame rfl room.nbrGameCreated⟩
    | getGameStatus =>
      exact outcome_of_changeNothing (askGame_outcome .gameStatus rfl (·.status.toUnsigned))
        (by simp [process, hop, getGameStatus])
    | _ => exact ⟨_, rp, room, by simp [process, hop], hdenied⟩

/-- What `process` returned is an outcome. -/
theorem outcome_of_process {rp rp' : RequestProcesser} {room room' : RoomInterface}
    {request : Request} {resp : Response}
    (h : rp.process room request = .ok (resp, rp', room')) :
    Outcome rp room request resp rp' room' := by
  obtain ⟨_, _, _, h', ho⟩ := process_outcome rp room request
  obtain ⟨rfl, rfl, rfl⟩ : resp = _ ∧ rp' = _ ∧ room' = _ := by simpa using h.symm.trans h'
  exact ho

/-- Every answer is built by `make_response`. -/
theorem Outcome.eq_makeResponse {rp rp' : RequestProcesser} {room room' : RoomInterface}
    {request : Request} {resp : Response} (h : Outcome rp room request resp rp' room') :
    ∃ code body, resp = makeResponse code body := by
  cases h <;> exact ⟨_, _, rfl⟩

/-- A processer never changes the client it serves. -/
theorem Outcome.playerId_eq {rp rp' : RequestProcesser} {room room' : RoomInterface}
    {request : Request} {resp : Response} (h : Outcome rp room request resp rp' room') :
    rp'.playerId = rp.playerId := by
  cases h <;> rfl

/-- What of a result the client and the rooms see. -/
def visible (r : Response × RequestProcesser × RoomInterface) : Response × RoomInterface :=
  (r.1, r.2.2)

theorem connectUser_nickname (p : ℕ) (nickname nickname' : Str) (room : RoomInterface)
    (request : Request) :
    ((⟨p, nickname⟩ : RequestProcesser).connectUser room request).map visible =
      ((⟨p, nickname'⟩ : RequestProcesser).connectUser room request).map visible := by
  unfold connectUser
  dsimp only
  split
  · rfl
  · split
    · rfl
    · cases index request.body.content 0 <;> rfl

/-- The nickname a processer holds changes neither its answers nor the rooms. -/
theorem process_nickname (p : ℕ) (nickname nickname' : Str) (room : RoomInterface)
    (request : Request) :
    ((⟨p, nickname⟩ : RequestProcesser).process room request).map visible =
      ((⟨p, nickname'⟩ : RequestProcesser).process room request).map visible := by
  have hchange {rp rp' : RequestProcesser} (x : Except Fault (Response × RoomInterface)) :
      (x.map fun r => (r.1, rp, r.2)).map visible =
        (x.map fun r => (r.1, rp', r.2)).map visible := by
    cases x <;> rfl
  have hnothing {rp rp' : RequestProcesser} (x : Except Fault Response) :
      (x.map fun r => (r, rp, room)).map visible =
        (x.map fun r => (r, rp', room)).map visible := by
    cases x <;> rfl
  unfold process
  split
  · exact connectUser_nickname p nickname nickname' room request
  · exact hchange _
  · rfl
  · exact hchange _
  · rfl
  · rfl
  · exact hchange _
  · exact hchange _
  · exact hnothing _
  · rfl
  · exact hnothing _
  · rfl

/-- Two processers of one client give the same answer and the same rooms. -/
theorem process_of_playerId {rp rp₀ rp' : RequestProcesser} {room room' : RoomInterface}
    {request : Request} {resp : Response} (hid : rp.playerId = rp₀.playerId)
    (h : rp.process room request = .ok (resp, rp', room')) :
    ∃ rp₁, rp₀.process room request = .ok (resp, rp₁, room') := by
  obtain ⟨p, nickname⟩ := rp
  obtain ⟨p₀, nickname₀⟩ := rp₀
  obtain rfl : p = p₀ := hid
  have hsame := process_nickname p nickname nickname₀ room request
  rw [h] at hsame
  obtain ⟨resp₁, rp₁, room₁, h₁, -⟩ :=
    process_outcome (⟨p, nickname₀⟩ : RequestProcesser) room request
  rw [h₁] at hsame
  obtain ⟨rfl, rfl⟩ := Prod.mk.inj (Except.ok.inj hsame)
  exact ⟨rp₁, h₁⟩

/-! ## Two exact answers -/

/-- A message to a room is answered with what the room interface says. -/
theorem process_sendMessage (rp : RequestProcesser) {room : RoomInterface} {request : Request}
    {roomText message : Str} {n : ℤ} (hop : request.header.opCode = OpCode.sendMessage.code)
    (hbody : request.body.content = [roomText, message]) (hroom : stoi roomText = .ok n) :
    rp.process room request =
      .ok (makeResponse (room.sendMessage (toSize n) rp.playerId message).1 [], rp,
        (room.sendMessage (toSize n) rp.playerId message).2) := by
  simp [process, hop, sendMessage_eq hbody hroom, Except.map]

/-- A free client that asks for a seat in an existing game gets it if there is a place. -/
theorem process_join (rp : RequestProcesser) {room : RoomInterface} {request : Request}
    {role : Role} {roomText : Str} {n : ℤ} {it : Iterator GameRoom}
    (hop : request.header.opCode = (joinCode role).code)
    (hbody : request.body.content = [roomText]) (hroom : stoi roomText = .ok n)
    (hfree : ¬room.isInRoom rp.playerId) (hit : room.getGame (toSize n) = some it) :
    rp.process room request =
      if it.value.hasPlace role then
        .ok (makeResponse .clientJoinGame
            (gameInformation (it.value.seat rp.playerId role).getGameInfo), rp,
          { room with gameRoom := (it.assign (it.value.seat rp.playerId role)).toVector })
      else .ok (makeResponse .tooManyClients [], rp, room) := by
  have hjoin := joinGameRoom_eq role hbody hroom hfree hit
  have hprocess : rp.process room request =
      (rp.joinGameRoom room request (role = .player)).map fun r => (r.1, rp, r.2) := by
    cases role <;> simp [process, hop, joinCode]
  rw [hprocess, hjoin]
  split <;> rfl

end RequestProcesser

end SpaceBattle
