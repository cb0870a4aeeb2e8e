import SpaceBattle.Lib.Cpp

/-!
# Codes and padded numerals

The enumerations of `data_utils.hpp` and `HeaderUtility`. A header stores the 16-bit
value of its code, declared or not; `OpCode.ofCode` is the enumerator with that value.
Two enumerators of `StatusCode` share the value `0xB115` and are one constructor here.
-/

namespace SpaceBattle

open Cpp

/-! ## Operation codes -/

/-- `OpCode` : what a client can ask for. -/
inductive OpCode
  | sendMessage
  | clientDisconnect
  | clientConnect
  | getGameDetailedInfo
  | createGame
  | joinAsPlayer
  | joinAsViewer
  | getGameInfo
  | nbrPeopleLoggedIn
  | playerLoggedIn
  | getNbrGameCreated
  | getGameStatus
  | readyToPlay
  | target
  | leave
  | replay
  | refuseReplay
  | placeShip
  deriving DecidableEq, Repr

namespace OpCode

def code : OpCode → UInt16
  | sendMessage => 0xA100
  | clientDisconnect => 0xA101
  | clientConnect => 0xA103
  | getGameDetailedInfo => 0xA114
  | createGame => 0xA111
  | joinAsPlayer => 0xA112
  | joinAsViewer => 0xA113
  | getGameInfo => 0xA110
  | nbrPeopleLoggedIn => 0xA115
  | playerLoggedIn => 0xA116
  | getNbrGameCreated => 0xA117
  | getGameStatus => 0xA118
  | readyToPlay => 0xA120
  | target => 0xA121
  | leave => 0xA122
  | replay => 0xA123
  | refuseReplay => 0xA124
  | placeShip => 0xA125

/-- The enumerators, in the order of the source. -/
def all : List OpCode :=
  [sendMessage, clientDisconnect, clientConnect, getGameDetailedInfo, createGame, joinAsPlayer,
    joinAsViewer, getGameInfo, nbrPeopleLoggedIn, playerLoggedIn, getNbrGameCreated,
    getGameStatus, readyToPlay, target, leave, replay, refuseReplay, placeShip]

/-- The enumerator a 16-bit value stands for, if one is declared. -/
def ofCode (c : UInt16) : Option OpCode :=
  all.find? fun op => op.code = c

@[simp] theorem ofCode_code (op : OpCode) : ofCode op.code = some op := by
  cases op <;> rfl

theorem ofCode_eq_some_iff {c : UInt16} {op : OpCode} : ofCode c = some op ↔ c = op.code := by
  refine ⟨fun h => ?_, fun h => h ▸ ofCode_code op⟩
  simpa [eq_comm] using List.find?_some h

/-- Every declared code has five digits. -/
theorem code_bounds (op : OpCode) : 10000 ≤ op.code.toNat ∧ op.code.toNat < 100000 := by
  cases op <;> decide

end OpCode

/-! ## Status codes -/

/-- `StatusCode` : what the server can answer. -/
inductive StatusCode
  | ok
  | permissionDenied
  | clientConnected
  | connectionRefused
  | formatError
  | clientDisconnect
  | emptyBodyFailure
  | invalidBodySize
  | invalidMagicCode
  | invalidRevisionNumber
  | invalidOpcode
  | numberOfClientMaxReached
  | numberGameMakable
  | listGame
  | nicknameNotSet
  | numberClientConnected
  | clientNotFound
  | roomNotFound
  | leaveSuccess
  | numberOfGame
  | gameCreated
  | tooManyClients
  | gameIdDoesntExist
  | clientJoinGame
  | gameInfo
  | nicknamePlayerLoggedIn
  | playerNumber
  | numberOfClientConnectable
  | gameWillDestroy
  | clientArrivedInGame
  | gameChangeStatus
  | gameStatus
  | waitingForSecondPlayer
  | readyToPlay
  | missShip
  | hitShip
  | sunkShip
  | playerWin
  deriving DecidableEq, Repr

namespace StatusCode

/-- `CLIENT_ALREADY_IN_ROOM` has the value of `CLIENT_NOT_FOUND`, `0xB115`. -/
@[match_pattern] abbrev clientAlreadyInRoom : StatusCode :=
  clientNotFound

def code : StatusCode → UInt16
  | ok => 0xB000
  | permissionDenied => 0xB001
  | clientConnected => 0xB003
  | connectionRefused => 0xB002
  | formatError => 0xB004
  | clientDisconnect => 0xB005
  | emptyBodyFailure => 0xB006
  | invalidBodySize => 0xB007
  | invalidMagicCode => 0xB008
  | invalidRevisionNumber => 0xB009
  | invalidOpcode => 0xB010
  | numberOfClientMaxReached => 0xB011
  | numberGameMakable => 0xB012
  | listGame => 0xB113
  | nicknameNotSet => 0xB014
  | numberClientConnected => 0xB016
  | clientNotFound => 0xB115
  | roomNotFound => 0xB116
  | leaveSuccess => 0xB117
  | numberOfGame => 0xB118
  | gameCreated => 0xB101
  | tooManyClients => 0xB100
  | gameIdDoesntExist => 0xB103
  | clientJoinGame => 0xB102
  | gameInfo => 0xB105
  | nicknamePlayerLoggedIn => 0xB106
  | playerNumber => 0xB107
  | numberOfClientConnectable => 0xB108
  | gameWillDestroy => 0xB110
  | clientArrivedInGame => 0xB111
  | gameChangeStatus => 0xB112
  | gameStatus => 0xB119
  | waitingForSecondPlayer => 0xB120
  | readyToPlay => 0xB121
  | missShip => 0xB122
  | hitShip => 0xB123
  | sunkShip => 0xB212
  | playerWin => 0xB213

/-- The status codes by value : a left inverse of `code`. -/
def ofCode (c : UInt16) : Option StatusCode :=
  [ok, permissionDenied, clientConnected, connectionRefused, formatError, clientDisconnect,
    emptyBodyFailure, invalidBodySize, invalidMagicCode, invalidRevisionNumber, invalidOpcode,
    numberOfClientMaxReached, numberGameMakable, listGame, nicknameNotSet, numberClientConnected,
    clientNotFound, roomNotFound, leaveSuccess, numberOfGame, gameCreated, tooManyClients,
    gameIdDoesntExist, clientJoinGame, gameInfo, nicknamePlayerLoggedIn, playerNumber,
    numberOfClientConnectable, gameWillDestroy, clientArrivedInGame, gameChangeStatus, gameStatus,
    waitingForSecondPlayer, readyToPlay, missShip, hitShip, sunkShip, playerWin].find?
      fun s => s.code = c

theorem ofCode_code (s : StatusCode) : ofCode s.code = some s := by
  cases s <;> rfl

@[simp] theorem code_inj {s t : StatusCode} : s.code = t.code ↔ s = t := by
  refine ⟨fun h => ?_, congrArg code⟩
  exact Option.some.inj ((ofCode_code s).symm.trans (h ▸ ofCode_code t))

/-- Every status the server can name has five digits. -/
theorem code_bounds (s : StatusCode) : 10000 ≤ s.code.toNat ∧ s.code.toNat < 100000 := by
  cases s <;> decide

end StatusCode

/-! ## `HeaderUtility` -/

namespace HeaderUtility

def defaultRev : Int16 :=
  1

def defaultMagic : UInt8 :=
  0x2A

def defaultBufferSize : UInt32 :=
  0

/-- `convert<Nbr>` : the numeral, padded with zeros to the length of the numeral of
`numeric_limits<Nbr>::max()`, here `max`. -/
def convert (max : ℕ) (value : ℤ) : Str :=
  let maxBoundary := Cpp.toString max
  let valueStr := Cpp.toString value
  if valueStr.length < maxBoundary.length then
    List.replicate (maxBoundary.length - valueStr.length) 0x30 ++ valueStr
  else valueStr

/-- A natural number is its numeral, padded to the length of the maximum. -/
theorem convert_natCast (max n : ℕ) :
    convert max n = List.replicate ((digits max).length - (digits n).length) 0x30 ++ digits n := by
  simp only [convert, toString_natCast]
  rcases Nat.lt_or_ge (digits n).length (digits max).length with hlt | hge
  · rw [if_pos hlt]
  · rw [if_neg (by omega), Nat.sub_eq_zero_of_le hge, List.replicate_zero, List.nil_append]

theorem length_convert_natCast {max n : ℕ} (h : n ≤ max) :
    (convert max n).length = (digits max).length := by
  have hpos : 0 < (digits max).length := List.length_pos_iff.2 (digits_ne_nil max)
  have hle : (digits n).length ≤ (digits max).length :=
    (length_digits_le_iff hpos).2 (h.trans_lt ((length_digits_le_iff hpos).1 le_rfl))
  rw [convert_natCast]
  simp only [List.length_append, List.length_replicate]
  omega

theorem zero_notMem_convert (max n : ℕ) : 0 ∉ convert max n := by
  rw [convert_natCast]
  simp [zero_notMem_digits]

theorem stoi_convert (max : ℕ) {n : ℕ} (hn : n < 2 ^ 31) :
    stoi (convert max n) = .ok (n : ℤ) := by
  rw [convert_natCast, stoi_padded _ hn]

end HeaderUtility

end SpaceBattle
