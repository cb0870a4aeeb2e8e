import Mathlib.Data.Set.Card
import SpaceBattle.Decisions
import SpaceBattle.Seating

/-!
# The hall

What the server is for, without its vectors, iterators and chats. A `Hall` is the set of the
clients that are present, the terms of the games in the order of their creation, and the
partial map of the seats. A request is a `Command`, read off its code and its body, and what
the server answers is a function of the hall : who is present, who sits where, and how many
(`Hall.answer`, `Hall.after`).

The order of the clients in a room, the chats and the nicknames are not part of a hall, so no
answer depends on them.
-/

namespace SpaceBattle

open Cpp RequestProcesser

/-! ## Commands -/

/-- What is agreed on when a game is created. -/
@[ext]
structure Terms where
  name : Str
  viewerLimit : ℕ
  timeLimit : ℕ

def GameRoom.terms (g : GameRoom) : Terms :=
  ⟨g.name, g.viewerLimit, g.timeLimit⟩

/-- What a request asks for. A body that does not say what the code needs is malformed, with
the number of the argument at fault; whether a client may create or join a game at all is
decided before its body is read. -/
inductive Command
  | login
  | say (room : ℕ)
  | leave
  | create (terms : Except UInt8 Terms)
  | listGames
  | countClients
  | join (role : Role) (room : Option ℕ)
  | countPlayers (room : ℕ)
  | countGames
  | askStatus (room : ℕ)
  | malformed (argument : UInt8)
  | unknown

/-- The terms a body of four strings describes. The limits are read before the flag, whose
value is not used. -/
def Request.terms (request : Request) : Except UInt8 Terms :=
  match request.body.content with
  | [name, flag, viewers, limit] =>
    match stoi viewers, stoi limit with
    | .error _, _ => .error 0x02
    | .ok _, .error _ => .error 0x04
    | .ok n, .ok l =>
      if ¬(l = 0 ∨ l = 30 ∨ l = 90) then .error 0x04
      else if ¬(flag = lit "0" ∨ flag = lit "1") then .error 0x03
      else .ok ⟨name, toSize n, toSize l⟩
  | _ => .error 0x01

/-- The command that names one room, or the refusal of a body that does not. -/
def Request.naming (request : Request) (command : ℕ → Command) : Command :=
  match request.addressed 1 with
  | some r => command r
  | none => .malformed 0x01

/-- The command of a request. -/
def Request.command (request : Request) : Command :=
  match OpCode.ofCode request.header.opCode with
  | some .clientConnect => if request.body.content.length = 1 then .login else .malformed 0x01
  | some .sendMessage =>
    match request.addressed 2 with
    | some r => .say r
    | none => .malformed (if request.body.content.length = 2 then 0x02 else 0x01)
  | some .leave => .leave
  | some .createGame => .create request.terms
  | some .getGameInfo => .listGames
  | some .nbrPeopleLoggedIn => .countClients
  | some .joinAsPlayer => .join .player (request.addressed 1)
  | some .joinAsViewer => .join .viewer (request.addressed 1)
  | some .playerLoggedIn => request.naming .countPlayers
  | some .getNbrGameCreated => .countGames
  | some .getGameStatus => request.naming .askStatus
  | _ => .unknown

/-! ## The hall -/

/-- Who is present, which games there are, and who sits where. -/
structure Hall where
  present : Set ℕ
  games : List Terms
  seats : Seating

namespace Hall

/-- The terms of the game with the id. The games are counted from one, and zero is the
general room. -/
def game (s : Hall) (r : ℕ) : Option Terms :=
  if r = 0 then none else s.games[r - 1]?

/-- The clients that sit in the game in the role. -/
def sitting (s : Hall) (r : ℕ) (role : Role) : Set ℕ :=
  {p | s.seats p = some (r, role)}

/-- The game takes one more client in the role : a player while it has less than two, a
viewer if it was created with any number of viewers but zero. -/
def Admits (s : Hall) (r : ℕ) (terms : Terms) : Role → Prop
  | .player => (s.sitting r .player).ncard < 2
  | .viewer => terms.viewerLimit ≠ 0

/-- The client takes the seat. -/
def seat (s : Hall) (p r : ℕ) (role : Role) : Hall :=
  { s with seats := Function.update s.seats p (some (r, role)) }

/-- The client leaves its seat, if it has one. -/
def unseat (s : Hall) (p : ℕ) : Hall :=
  { s with seats := Function.update s.seats p none }

/-- The game is opened, and its creator is its first player. -/
def openGame (s : Hall) (p : ℕ) (terms : Terms) : Hall :=
  { s.seat p (s.games.length + 1) .player with games := s.games ++ [terms] }

/-- The answer about a game, if there is one with the id. -/
def ask (s : Hall) (r : ℕ) (answer : Terms → Response) : Response :=
  ((s.game r).map answer).getD (makeResponse .roomNotFound [])

open Classical in
/-- The hall after a command of the client. -/
noncomputable def after (s : Hall) (p : ℕ) : Command → Hall
  | .login => { s with present := insert p s.present }
  | .leave => s.unseat p
  | .create (.ok terms) => if s.seats p = none then s.openGame p terms else s
  | .join role (some r) =>
    if s.seats p = none ∧ ∃ terms ∈ s.game r, s.Admits r terms role then s.seat p r role else s
  | _ => s

open Classical in
/-- What the client is answered. The status of a game is the one it was created with. -/
noncomputable def answer (s : Hall) (p : ℕ) : Command → Response
  | .login =>
    if p ∈ s.present then makeResponse .clientAlreadyInRoom []
    else makeResponse .clientConnected [digits p, digits 0]
  | .say r =>
    if r = 0 then
      if p ∈ s.present then makeResponse .ok [] else makeResponse .permissionDenied []
    else s.ask r fun _ => makeResponse .ok []
  | .leave => makeResponse .leaveSuccess []
  | .create terms =>
    if s.seats p ≠ none then makeResponse .permissionDenied []
    else
      match terms with
      | .error k => formatError k
      | .ok _ => makeResponse .gameCreated [digits (s.games.length + 1)]
  | .listGames =>
    makeResponse .listGame ((s.games.zipIdx 1).flatMap fun x => [digits x.2, x.1.name])
  | .countClients => makeResponse .numberClientConnected [digits s.present.ncard]
  | .join role room =>
    if s.seats p ≠ none then makeResponse .permissionDenied []
    else
      match room with
      | none => formatError 0x01
      | some r => s.ask r fun terms =>
        if s.Admits r terms role then
          makeResponse .clientJoinGame [terms.name, digits terms.viewerLimit,
            digits ((s.seat p r role).sitting r .player).ncard, digits terms.timeLimit,
            digits GameStatus.new.toUnsigned]
        else makeResponse .tooManyClients []
  | .countPlayers r =>
    s.ask r fun _ => makeResponse .playerNumber [digits (s.sitting r .player).ncard]
  | .countGames => makeResponse .numberOfGame [digits s.games.length]
  | .askStatus r => s.ask r fun _ => makeResponse .gameStatus [digits GameStatus.new.toUnsigned]
  | .malformed k => formatError k
  | .unknown => makeResponse .permissionDenied [lit "tes", lit "vraiment", lit "trop", lit "con"]

/-- One event, and its answer : a disconnection has none. -/
noncomputable def step (s : Hall) : Lobby.Event → Option (Hall × Option Response)
  | .request p request => some (s.after p request.command, some (s.answer p request.command))
  | .disconnect p => some ({ s.unseat p with present := s.present \ {p} }, none)

end Hall

/-- The hall, from nobody and no games. -/
noncomputable def hall : Machine Hall Lobby.Event (Option Response) :=
  ⟨⟨∅, [], fun _ => none⟩, Hall.step⟩

end SpaceBattle
