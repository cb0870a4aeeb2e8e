import SpaceBattle.Lib.Iterator
import SpaceBattle.DataUtils

/-!
# The rooms

The general room and the game rooms, each with its chat, and `RoomInterface` over them.
A method that changes its object returns the object after it, next to its own result.

A game room holds its players and its viewers in two vectors. `Role` names the two, and
`occupants`, `seat` and `hasPlace` are the vector of a role, the insertion into it and
the test before it. The insertion of a viewer tests the limit against zero only, and a
game room inherits `send_message` from `Room`, where the general room overrides it.
-/

namespace SpaceBattle

open Cpp

/-! ## Chats -/

/-- `ChatRoom::ChatInformation`. -/
structure ChatInformation where
  playerId : ℕ
  message : Str
  deriving DecidableEq

/-- `ChatRoom`. -/
structure ChatRoom where
  chat : List ChatInformation
  deriving DecidableEq

def ChatRoom.insertMessage (c : ChatRoom) (playerId : ℕ) (message : Str) : StatusCode × ChatRoom :=
  (.ok, { c with chat := c.chat ++ [⟨playerId, message⟩] })

/-- `Room`. -/
structure Room where
  roomId : ℕ
  chatRoom : ChatRoom
  deriving DecidableEq

namespace Room

/-- `Room(std::size_t)`. -/
def new (roomId : ℕ) : Room :=
  ⟨roomId, ⟨[]⟩⟩

/-- `Room::send_message`, which a room kind may override. -/
def sendMessage (r : Room) (clientId : ℕ) (message : Str) : StatusCode × Room :=
  let (_, chatRoom) := r.chatRoom.insertMessage clientId message
  (.ok, { r with chatRoom := chatRoom })

/-- The messages of the room's chat. -/
def log (r : Room) : List ChatInformation :=
  r.chatRoom.chat

end Room

/-- `RoomInformation`. -/
structure RoomInformation where
  roomId : ℕ
  name : Str
  statusCode : StatusCode

/-! ## The general room -/

/-- `GeneralRoom`. -/
structure GeneralRoom extends Room where
  client : List ℕ
  deriving DecidableEq

namespace GeneralRoom

/-- `GeneralRoom(std::size_t room_id)`; the default id is `0`. -/
def new (roomId : ℕ) : GeneralRoom :=
  ⟨Room.new roomId, []⟩

def insertClient (g : GeneralRoom) (client : ℕ) : StatusCode × GeneralRoom :=
  if client ∈ g.client then (.clientAlreadyInRoom, g)
  else (.clientConnected, { g with client := g.client ++ [client] })

/-- The override : only a client of the room is heard. -/
def sendMessage (g : GeneralRoom) (clientId : ℕ) (message : Str) : StatusCode × GeneralRoom :=
  if clientId ∈ g.client then
    let (statusCode, room) := g.toRoom.sendMessage clientId message
    (statusCode, { g with toRoom := room })
  else (.permissionDenied, g)

def removeClient (g : GeneralRoom) (clientId : ℕ) : StatusCode × GeneralRoom :=
  if clientId ∈ g.client then (.ok, { g with client := g.client.erase clientId })
  else (.clientNotFound, g)

def getNbrClient (g : GeneralRoom) : ℕ :=
  g.client.length

/-- The room with one more client. -/
def enter (g : GeneralRoom) (p : ℕ) : GeneralRoom :=
  { g with client := g.client ++ [p] }

/-- The room with one more message. -/
def say (g : GeneralRoom) (p : ℕ) (message : Str) : GeneralRoom :=
  { g with toRoom := (g.toRoom.sendMessage p message).2 }

theorem insertClient_eq (g : GeneralRoom) (p : ℕ) : g.insertClient p =
    if p ∈ g.client then (.clientAlreadyInRoom, g) else (.clientConnected, g.enter p) :=
  rfl

theorem sendMessage_eq (g : GeneralRoom) (p : ℕ) (message : Str) : g.sendMessage p message =
    if p ∈ g.client then (.ok, g.say p message) else (.permissionDenied, g) :=
  rfl

@[simp] theorem toRoom_enter (g : GeneralRoom) (p : ℕ) : (g.enter p).toRoom = g.toRoom :=
  rfl

@[simp] theorem log_say (g : GeneralRoom) (p : ℕ) (message : Str) :
    (g.say p message).log = g.log ++ [⟨p, message⟩] :=
  rfl

@[simp] theorem roomId_say (g : GeneralRoom) (p : ℕ) (message : Str) :
    (g.say p message).roomId = g.roomId :=
  rfl

@[simp] theorem client_say (g : GeneralRoom) (p : ℕ) (message : Str) :
    (g.say p message).client = g.client :=
  rfl

@[simp] theorem toRoom_removeClient (g : GeneralRoom) (p : ℕ) :
    (g.removeClient p).2.toRoom = g.toRoom := by
  unfold removeClient
  split <;> rfl

@[simp] theorem client_removeClient (g : GeneralRoom) (p : ℕ) :
    (g.removeClient p).2.client = g.client.erase p := by
  unfold removeClient
  split
  · rfl
  · exact (List.erase_of_not_mem ‹_›).symm

end GeneralRoom

/-! ## Game rooms -/

/-- `GameRoom::GameStatus`; `IN_PROGRESS` has the value of `WAITING_FOR_LAUNCHING`. -/
inductive GameStatus
  | new
  | waitingForPlayer
  | waitingForLaunching
  deriving DecidableEq, Repr

def GameStatus.toUnsigned : GameStatus → ℕ
  | new => 0
  | waitingForPlayer => 1
  | waitingForLaunching => 2

/-- `GameRoom`. -/
structure GameRoom extends Room where
  name : Str
  viewerLimit : ℕ
  timeLimit : ℕ
  roomStatus : GameStatus
  viewerIds : List ℕ
  playerIds : List ℕ
  deriving DecidableEq

/-- `GameRoom::GameInformation`. -/
structure GameInformation where
  name : Str
  viewerLimit : ℕ
  nbrPlayer : ℕ
  timeLimit : ℕ
  status : GameStatus

/-- The two ways to sit in a game room. -/
inductive Role
  | player
  | viewer
  deriving DecidableEq, Repr

namespace GameRoom

/-- `GameRoom(roomId, name, nbrViewer, limitOfTime)`. -/
def new (roomId : ℕ) (name : Str) (nbrViewer limitOfTime : ℕ) : GameRoom :=
  ⟨Room.new roomId, name, nbrViewer, limitOfTime, .new, [], []⟩

def removeClient (g : GameRoom) (clientId : ℕ) : StatusCode × GameRoom :=
  if clientId ∈ g.playerIds then (.ok, { g with playerIds := g.playerIds.erase clientId })
  else if clientId ∈ g.viewerIds then (.ok, { g with viewerIds := g.viewerIds.erase clientId })
  else (.clientNotFound, g)

def isInRoom (g : GameRoom) (clientId : ℕ) : Bool :=
  clientId ∈ g.playerIds ∨ clientId ∈ g.viewerIds

def getRoomInfo (g : GameRoom) : RoomInformation :=
  ⟨g.roomId, g.name, .ok⟩

def getGameInfo (g : GameRoom) : GameInformation :=
  ⟨g.name, g.viewerLimit, g.playerIds.length, g.timeLimit, g.roomStatus⟩

def insertPlayer (g : GameRoom) (clientId : ℕ) : StatusCode × GameRoom :=
  if g.playerIds.length = 2 then (.tooManyClients, g)
  else (.clientJoinGame, { g with playerIds := g.playerIds ++ [clientId] })

/-- Only a limit of zero refuses a viewer. -/
def insertViewer (g : GameRoom) (clientId : ℕ) : StatusCode × GameRoom :=
  if g.viewerLimit = 0 then (.tooManyClients, g)
  else (.clientJoinGame, { g with viewerIds := g.viewerIds ++ [clientId] })

/-- The inherited `Room::send_message` : `GameRoom` does not override it. -/
def sendMessage (g : GameRoom) (clientId : ℕ) (message : Str) : StatusCode × GameRoom :=
  let (statusCode, room) := g.toRoom.sendMessage clientId message
  (statusCode, { g with toRoom := room })

/-! ### Seats -/

/-- The vector of the role. -/
def occupants (g : GameRoom) : Role → List ℕ
  | .player => g.playerIds
  | .viewer => g.viewerIds

/-- The room with the client at the end of the role's vector. -/
def seat (g : GameRoom) (p : ℕ) : Role → GameRoom
  | .player => { g with playerIds := g.playerIds ++ [p] }
  | .viewer => { g with viewerIds := g.viewerIds ++ [p] }

/-- The test before an insertion. -/
def hasPlace (g : GameRoom) : Role → Bool
  | .player => g.playerIds.length ≠ 2
  | .viewer => g.viewerLimit ≠ 0

/-- The room without the client. -/
def without (g : GameRoom) (p : ℕ) : GameRoom :=
  { g with playerIds := g.playerIds.erase p, viewerIds := g.viewerIds.erase p }

/-- The room with one more message. -/
def say (g : GameRoom) (p : ℕ) (message : Str) : GameRoom :=
  (g.sendMessage p message).2

theorem sendMessage_eq (g : GameRoom) (p : ℕ) (message : Str) :
    g.sendMessage p message = (.ok, g.say p message) :=
  rfl

theorem insertPlayer_eq (g : GameRoom) (p : ℕ) : g.insertPlayer p =
    if g.hasPlace .player then (.clientJoinGame, g.seat p .player) else (.tooManyClients, g) := by
  by_cases h : g.playerIds.length = 2 <;> simp [insertPlayer, hasPlace, seat, h]

theorem insertViewer_eq (g : GameRoom) (p : ℕ) : g.insertViewer p =
    if g.hasPlace .viewer then (.clientJoinGame, g.seat p .viewer) else (.tooManyClients, g) := by
  by_cases h : g.viewerLimit = 0 <;> simp [insertViewer, hasPlace, seat, h]

/-- The two vectors are the occupants in either role. -/
theorem mem_everyone {g : GameRoom} {p : ℕ} :
    p ∈ g.playerIds ++ g.viewerIds ↔ ∃ role, p ∈ g.occupants role := by
  rw [List.mem_append]
  refine ⟨fun h => h.elim (⟨.player, ·⟩) (⟨.viewer, ·⟩), ?_⟩
  rintro ⟨role | role, h⟩
  · exact Or.inl h
  · exact Or.inr h

theorem isInRoom_iff {g : GameRoom} {p : ℕ} : g.isInRoom p ↔ ∃ role, p ∈ g.occupants role := by
  rw [← mem_everyone, List.mem_append, isInRoom, decide_eq_true_eq]

@[simp] theorem log_say (g : GameRoom) (p : ℕ) (message : Str) :
    (g.say p message).log = g.log ++ [⟨p, message⟩] :=
  rfl

@[simp] theorem roomId_say (g : GameRoom) (p : ℕ) (message : Str) :
    (g.say p message).roomId = g.roomId :=
  rfl

@[simp] theorem occupants_say (g : GameRoom) (p : ℕ) (message : Str) (role : Role) :
    (g.say p message).occupants role = g.occupants role := by
  cases role <;> rfl

@[simp] theorem toRoom_seat (g : GameRoom) (p : ℕ) (role : Role) :
    (g.seat p role).toRoom = g.toRoom := by
  cases role <;> rfl

theorem occupants_seat (g : GameRoom) (p : ℕ) (role role' : Role) :
    (g.seat p role).occupants role' =
      if role = role' then g.occupants role' ++ [p] else g.occupants role' := by
  cases role <;> cases role' <;> rfl

@[simp] theorem toRoom_without (g : GameRoom) (p : ℕ) : (g.without p).toRoom = g.toRoom :=
  rfl

@[simp] theorem occupants_without (g : GameRoom) (p : ℕ) (role : Role) :
    (g.without p).occupants role = (g.occupants role).erase p := by
  cases role <;> rfl

theorem without_of_not_isInRoom {g : GameRoom} {p : ℕ} (h : ¬g.isInRoom p) : g.without p = g := by
  simp only [isInRoom, decide_eq_true_eq, not_or] at h
  rw [without, List.erase_of_not_mem h.1, List.erase_of_not_mem h.2]

/-- If a client sits in one role only, its first seat is its last. -/
theorem removeClient_eq_without {g : GameRoom} {p : ℕ} (hin : g.isInRoom p)
    (hone : p ∈ g.playerIds → p ∉ g.viewerIds) : (g.removeClient p).2 = g.without p := by
  by_cases hp : p ∈ g.playerIds
  · simp [removeClient, without, hp, List.erase_of_not_mem (hone hp)]
  · have hv : p ∈ g.viewerIds := by simpa [isInRoom, hp] using hin
    simp [removeClient, without, hp, hv, List.erase_of_not_mem hp]

end GameRoom

/-! ## The interface -/

/-- `RoomInterface`. -/
structure RoomInterface where
  general : GeneralRoom
  gameRoom : List GameRoom
  deriving DecidableEq

namespace RoomInterface

/-- The value-initialised interface of the pool. -/
def new : RoomInterface :=
  ⟨GeneralRoom.new 0, []⟩

def insertOnGeneralRoom (rooms : RoomInterface) (clientId : ℕ) : RoomInformation × RoomInterface :=
  let (statusCode, general) := rooms.general.insertClient clientId
  let roomId := general.roomId
  (⟨roomId, lit "general", statusCode⟩, { rooms with general := general })

def sendMessage (rooms : RoomInterface) (roomId clientId : ℕ) (message : Str) :
    StatusCode × RoomInterface :=
  if roomId = rooms.general.roomId then
    let (statusCode, general) := rooms.general.sendMessage clientId message
    (statusCode, { rooms with general := general })
  else
    match findIf (fun game => game.roomId = roomId) rooms.gameRoom with
    | none => (.roomNotFound, rooms)
    | some it =>
      let (statusCode, game) := it.value.sendMessage clientId message
      (statusCode, { rooms with gameRoom := (it.assign game).toVector })

def removeFromGeneral (rooms : RoomInterface) (clientId : ℕ) : StatusCode × RoomInterface :=
  let (statusCode, general) := rooms.general.removeClient clientId
  (statusCode, { rooms with general := general })

def removeFromGame (rooms : RoomInterface) (clientId : ℕ) : StatusCode × RoomInterface :=
  match findIf (fun game => game.isInRoom clientId) rooms.gameRoom with
  | none => (.clientNotFound, rooms)
  | some it =>
    let (statusCode, game) := it.value.removeClient clientId
    (statusCode, { rooms with gameRoom := (it.assign game).toVector })

def isInRoom (rooms : RoomInterface) (clientId : ℕ) : Bool :=
  (findIf (fun game => game.isInRoom clientId) rooms.gameRoom).isSome

def createGame (rooms : RoomInterface) (clientId : ℕ) (name : Str) (nbrViewer limitOfTime : ℕ) :
    ℕ × RoomInterface :=
  let idRoom := rooms.gameRoom.length + 1
  let gameRoom := GameRoom.new idRoom name nbrViewer limitOfTime
  let (_, gameRoom) := gameRoom.insertPlayer clientId
  (idRoom, { rooms with gameRoom := rooms.gameRoom ++ [gameRoom] })

/-- `RoomInterface::get_game_info`, the information of every game room. -/
def getGameInfo (rooms : RoomInterface) : List RoomInformation :=
  rooms.gameRoom.map GameRoom.getRoomInfo

def getClientConnected (rooms : RoomInterface) : ℕ :=
  rooms.general.getNbrClient

def getGame (rooms : RoomInterface) (gameId : ℕ) : Option (Iterator GameRoom) :=
  findIf (fun game => game.roomId = gameId) rooms.gameRoom

def nbrGameCreated (rooms : RoomInterface) : ℕ :=
  rooms.gameRoom.length

/-- A game starts with its creator in a player seat. -/
theorem createGame_snd (rooms : RoomInterface) (p : ℕ) (name : Str) (nbrViewer limitOfTime : ℕ) :
    (rooms.createGame p name nbrViewer limitOfTime).2 = { rooms with gameRoom := rooms.gameRoom ++
      [(GameRoom.new (rooms.gameRoom.length + 1) name nbrViewer limitOfTime).seat p .player] } :=
  rfl

end RoomInterface

end SpaceBattle
