import SpaceBattle.Lobby

/-!
# The chats

`logOf` is the chat of the room with an id. One step adds at most one message to one
chat : the one the step's answer reports (`logOf_step`), so the chat of a room is the
messages of the trace that were answered `OK` and name the room (`log_eq_said`).

Only the general room checks that the sender is a member; a game room inherits the
unchecked `send_message`. `authorised_iff` : the chats of a run are authorised if and only
if every message to a game room is sent by a client that sits in it.
-/

namespace SpaceBattle

open Cpp RequestProcesser RoomInterface

/-! ## Logs -/

/-- The first game room with the id. -/
def RoomInterface.gameAt (rooms : RoomInterface) (r : ℕ) : Option GameRoom :=
  rooms.gameRoom.find? fun g => g.roomId = r

theorem gameAt_spec {rooms : RoomInterface} {r : ℕ} {g : GameRoom} (h : rooms.gameAt r = some g) :
    g ∈ rooms.gameRoom ∧ g.roomId = r :=
  ⟨List.mem_of_find?_eq_some h, by simpa using List.find?_some h⟩

theorem gameAt_eq_none_iff {rooms : RoomInterface} {r : ℕ} :
    rooms.gameAt r = none ↔ ∀ g ∈ rooms.gameRoom, g.roomId ≠ r := by
  simp [gameAt]

theorem gameAt_mapGame {rooms : RoomInterface} {F : GameRoom → GameRoom}
    (hF : ∀ g, (F g).roomId = g.roomId) (r : ℕ) :
    (rooms.mapGame F).gameAt r = (rooms.gameAt r).map F := by
  have hcomp : (fun g : GameRoom => decide (g.roomId = r)) ∘ F = fun g => decide (g.roomId = r) :=
    funext fun g => by rw [Function.comp_apply, hF]
  rw [gameAt, mapGame, List.find?_map, hcomp, gameAt]

/-- The chat of the room with the id, empty if there is no such room. -/
def RoomInterface.logOf (rooms : RoomInterface) (r : ℕ) : List ChatInformation :=
  if r = rooms.general.roomId then rooms.general.log
  else ((rooms.gameAt r).map fun g => g.log).getD []

/-- In well-formed rooms the first room with a room's id is that room. -/
theorem RoomInterface.WellFormed.gameAt_eq_some {rooms : RoomInterface} (wf : rooms.WellFormed)
    {g : GameRoom} (hg : g ∈ rooms.gameRoom) : rooms.gameAt g.roomId = some g := by
  cases hat : rooms.gameAt g.roomId with
  | none => exact absurd rfl (gameAt_eq_none_iff.1 hat g hg)
  | some g' =>
    obtain ⟨hmem, hid⟩ := gameAt_spec hat
    rw [wf.eq_of_roomId hmem hg hid]

theorem RoomInterface.WellFormed.logOf_game {rooms : RoomInterface} (wf : rooms.WellFormed)
    {g : GameRoom} (hg : g ∈ rooms.gameRoom) : rooms.logOf g.roomId = g.log := by
  rw [logOf, if_neg (wf.ne_general hg), wf.gameAt_eq_some hg]
  rfl

theorem logOf_withGeneral {rooms : RoomInterface} {g : GeneralRoom}
    (h : g.toRoom = rooms.general.toRoom) (r : ℕ) :
    ({ rooms with general := g } : RoomInterface).logOf r = rooms.logOf r := by
  simp only [logOf, h, gameAt]

/-- A message in the general room is added to its chat. -/
theorem logOf_sayInGeneral {rooms : RoomInterface} (p : ℕ) (message : Str) (r : ℕ) :
    ({ rooms with general := rooms.general.say p message } : RoomInterface).logOf r =
      rooms.logOf r ++ if rooms.general.roomId = r then [⟨p, message⟩] else [] := by
  by_cases hr : r = rooms.general.roomId
  · simp [logOf, hr]
  · simp [logOf, hr, Ne.symm hr, gameAt]

/-- A change of the game rooms that keeps their ids and logs keeps every chat. -/
theorem logOf_mapGame {rooms : RoomInterface} {F : GameRoom → GameRoom}
    (hF : ∀ g, (F g).toRoom = g.toRoom) (r : ℕ) : (rooms.mapGame F).logOf r = rooms.logOf r := by
  have hlog : ∀ g : GameRoom, (F g).log = g.log := fun g => by rw [hF]
  rw [logOf, gameAt_mapGame (fun g => by rw [hF]), logOf]
  cases rooms.gameAt r with
  | none => rfl
  | some g => simp only [Option.map_some, hlog, mapGame]

/-- A message in an existing game room is added to that room's chat. -/
theorem logOf_say {rooms : RoomInterface} {r : ℕ} (hr : ∃ g ∈ rooms.gameRoom, g.roomId = r)
    (hne : r ≠ rooms.general.roomId) (p : ℕ) (message : Str) (r' : ℕ) :
    (rooms.mapGame (atGame r (·.say p message))).logOf r' =
      rooms.logOf r' ++ if r = r' then [⟨p, message⟩] else [] := by
  rw [logOf, gameAt_mapGame (atGame_congr (·.roomId) fun g => g.roomId_say p message), logOf]
  by_cases heq : r = r'
  · subst heq
    rw [general_mapGame, if_neg hne, if_neg hne, if_pos rfl]
    cases hat : rooms.gameAt r with
    | none =>
      obtain ⟨g, hg, hid⟩ := hr
      exact absurd hid (gameAt_eq_none_iff.1 hat g hg)
    | some g =>
      have hid := (gameAt_spec hat).2
      simp only [Option.map_some, Option.getD_some, atGame, if_pos hid, GameRoom.log_say]
  · rw [if_neg heq, List.append_nil]
    cases hat : rooms.gameAt r' with
    | none => rfl
    | some g =>
      have hid : g.roomId ≠ r := fun h => heq (h.symm.trans (gameAt_spec hat).2)
      simp only [Option.map_some, Option.getD_some, atGame, if_neg hid, mapGame]

/-- A new game has no messages. -/
theorem logOf_createGame {rooms : RoomInterface} (p : ℕ) (name : Str)
    (nbrViewer limitOfTime r : ℕ) :
    (rooms.createGame p name nbrViewer limitOfTime).2.logOf r = rooms.logOf r := by
  let new := (GameRoom.new (rooms.gameRoom.length + 1) name nbrViewer limitOfTime).seat p .player
  have hat : (rooms.createGame p name nbrViewer limitOfTime).2.gameAt r =
      (rooms.gameAt r).or ([new].find? fun g => g.roomId = r) := List.find?_append
  have hlog : ∀ g, [new].find? (fun g => g.roomId = r) = some g → g.log = [] := fun g hg => by
    rw [List.mem_singleton.1 (List.mem_of_find?_eq_some hg)]
    rfl
  rw [logOf, hat, logOf]
  cases rooms.gameAt r with
  | some g => rfl
  | none =>
    cases hnew : [new].find? (fun g => g.roomId = r) with
    | none => rfl
    | some g =>
      simp only [Option.none_or, Option.map_some, Option.getD_some, hlog g hnew]
      rfl

/-! ## What a step adds -/

/-- The message of a `SEND_MESSAGE` whose first string denotes the room. -/
def Request.messageTo (request : Request) (r : ℕ) : Option Str :=
  if request.header.opCode = OpCode.sendMessage.code then
    match request.body.content with
    | roomText :: message :: _ =>
      match stoi roomText with
      | .ok n => if toSize n = r then some message else none
      | .error _ => none
    | _ => none
  else none

/-- The entry the event makes in the room's chat : a message to the room, if it is
answered `OK`. -/
def entry (r : ℕ) : Lobby.Event × Option Response → Option ChatInformation
  | (.request p request, some response) =>
    if response.Answers .ok then (request.messageTo r).map fun message => ⟨p, message⟩ else none
  | _ => none

/-- The messages of the trace that were answered `OK` and name the room. -/
def said (r : ℕ) (tr : List (Lobby.Event × Option Response)) : List ChatInformation :=
  tr.filterMap (entry r)

/-- The request is a message to the room with this id. -/
def Request.Tells (request : Request) (r : ℕ) (message : Str) : Prop :=
  request.header.opCode = OpCode.sendMessage.code ∧
    ∃ roomText n, request.body.content = [roomText, message] ∧ stoi roomText = .ok n ∧ toSize n = r

theorem entry_of_message {request : Request} {r : ℕ} {message : Str}
    (htells : request.Tells r message) (p : ℕ) (resp : Response) (r' : ℕ) :
    entry r' (.request p request, some resp) =
      if resp.Answers .ok ∧ r = r' then some ⟨p, message⟩ else none := by
  obtain ⟨hop, roomText, n, hbody, hroom, rfl⟩ := htells
  have hmessage : request.messageTo r' = if toSize n = r' then some message else none := by
    simp [Request.messageTo, hop, hbody, hroom]
  by_cases hok : resp.Answers .ok <;> by_cases hr : toSize n = r' <;>
    simp [entry, hmessage, hok, hr]

/-- A step adds to every chat the entry its event makes there. -/
theorem logOf_step {s s' : Lobby} {e : Lobby.Event} {o : Option Response}
    (wf : s.rooms.WellFormed) (h : lobby.step s e = some (s', o)) (r : ℕ) :
    s'.rooms.logOf r = s.rooms.logOf r ++ (entry r (e, o)).toList := by
  rcases Lobby.step_cases h with ⟨p, request, resp, rp, rfl, rfl, -, ho⟩ | ⟨p, rfl, rfl, hrooms⟩
  · generalize s'.rooms = rooms' at ho
    cases ho with
    | connected =>
      rw [logOf_withGeneral (GeneralRoom.toRoom_enter _ _)]
      simp [entry]
    | @saidInGeneral roomText message n hop hbody hroom hid =>
      have htells : request.Tells (toSize n) message := ⟨hop, roomText, n, hbody, hroom, rfl⟩
      rw [logOf_sayInGeneral, ← hid, entry_of_message htells]
      by_cases hr : toSize n = r <;> simp [hr]
    | @saidInGame roomText message n it hop hbody hroom hid hit =>
      have htells : request.Tells (toSize n) message := ⟨hop, roomText, n, hbody, hroom, rfl⟩
      rw [wf.assign_eq_mapGame hit (·.say _ _), logOf_say ⟨_, getGame_spec hit⟩ hid,
        entry_of_message htells]
      by_cases hr : toSize n = r <;> simp [hr]
    | left =>
      rw [wf.removeFromGame_eq_mapGame, logOf_mapGame fun g => g.toRoom_without _]
      simp [entry]
    | created =>
      rw [logOf_createGame]
      simp [entry]
    | @joined role _ _ _ _ _ _ _ hit =>
      rw [wf.assign_eq_mapGame hit (·.seat _ role),
        logOf_mapGame (atGame_congr (·.toRoom) fun g => by simp)]
      simp [entry]
    | @unchanged code _ hcode =>
      have hok : code ≠ .ok := ne_of_reportsChange hcode rfl
      simp [entry, hok]
  · rw [hrooms, wf.removeFromRoom_eq, logOf_mapGame fun g => g.toRoom_without _,
      logOf_withGeneral (by simp)]
    simp [entry]

theorem logOf_of_run {tr : List (Lobby.Event × Option Response)} {s : Lobby}
    (h : lobby.Run tr s) (r : ℕ) : s.rooms.logOf r = said r tr := by
  refine (h.invariant_trace (I := fun tr s => s.rooms.WellFormed ∧ s.rooms.logOf r = said r tr)
    ⟨RoomInterface.WellFormed.new, ?_⟩ fun tr s e s' o _ hs hstep => ?_).2
  · exact ite_self []
  · refine ⟨Lobby.wellFormed_of_step hs.1 hstep, ?_⟩
    rw [logOf_step hs.1 hstep, hs.2, said, said, List.filterMap_append]
    cases hentry : entry r (e, o) <;> simp [hentry]

/-- The chat of every room is the messages to it that were answered `OK`, entry for
entry and in order. -/
theorem log_eq_said {tr : List (Lobby.Event × Option Response)} {s : Lobby}
    (h : lobby.Run tr s) :
    s.rooms.general.log = said s.rooms.general.roomId tr ∧
      ∀ g ∈ s.rooms.gameRoom, g.log = said g.roomId tr := by
  refine ⟨?_, fun g hg => ?_⟩
  · rw [← logOf_of_run h]
    simp [logOf]
  · rw [← logOf_of_run h, (Lobby.wellFormed_of_run h).logOf_game hg]

/-- A client says hello in the general room, and a stranger is not heard. -/
theorem log_eq_said_hello : ∃ tr s, lobby.Run tr s ∧ s.rooms.general.log = [⟨1, lit "hello"⟩] ∧
    s.rooms.general.log = said s.rooms.general.roomId tr := by
  have hrun := Machine.run_of_isSome lobby
    [.request 1 (makeRequest .clientConnect [lit "ada"]),
      .request 1 (makeRequest .sendMessage [lit "0", lit "hello"]),
      .request 2 (makeRequest .sendMessage [lit "0", lit "hey"])] (by decide +kernel)
  exact ⟨_, _, hrun, by decide +kernel, (log_eq_said hrun).1⟩

/-! ## Who may write -/

/-- The general room or a game room has the id. -/
def RoomInterface.HasRoom (rooms : RoomInterface) (r : ℕ) : Prop :=
  r = rooms.general.roomId ∨ ∃ g ∈ rooms.gameRoom, g.roomId = r

/-- The client is in the room : in the general list, or a player or viewer of the game. -/
def RoomInterface.Member (rooms : RoomInterface) (p r : ℕ) : Prop :=
  (r = rooms.general.roomId ∧ p ∈ rooms.general.client) ∨ ∃ role, rooms.Seated p r role

/-- A step treats messages as the rooms' membership says. -/
structure Authorised (s : Lobby) (e : Lobby.Event) (o : Option Response) (s' : Lobby) : Prop where
  /-- A member is heard, in its room only. -/
  member : ∀ p request r message, e = .request p request → request.Tells r message →
    s.rooms.HasRoom r → s.rooms.Member p r → (∃ resp, o = some resp ∧ resp.Answers .ok) ∧
      s'.rooms.logOf r = s.rooms.logOf r ++ [⟨p, message⟩] ∧
      ∀ r', r' ≠ r → s'.rooms.logOf r' = s.rooms.logOf r'
  /-- Anybody else is refused, and no chat changes. -/
  stranger : ∀ p request r message, e = .request p request → request.Tells r message →
    s.rooms.HasRoom r → ¬s.rooms.Member p r →
      (∃ resp, o = some resp ∧ resp.Answers .permissionDenied) ∧
      ∀ r', s'.rooms.logOf r' = s.rooms.logOf r'
  /-- Whatever a chat gains was written by a member. -/
  gained : ∀ r x, s'.rooms.logOf r = s.rooms.logOf r ++ [x] → s.rooms.Member x.playerId r

/-- A message to an existing game room comes from a client that sits in it. -/
def SentFromInside (s : Lobby) (e : Lobby.Event) (_ : Option Response) (_ : Lobby) : Prop :=
  ∀ p request r message, e = .request p request → request.Tells r message →
    (∃ g ∈ s.rooms.gameRoom, g.roomId = r) → ∃ role, s.rooms.Seated p r role

/-- Every entry of every chat was written by a client that was in the room then. -/
def WrittenByMembers (tr : List (Lobby.Event × Option Response)) (s : Lobby) : Prop :=
  ∀ r i x, (s.rooms.logOf r)[i]? = some x → ∃ tr₁ s₁ e o s₁', tr₁ ++ [(e, o)] <+: tr ∧
    lobby.Run tr₁ s₁ ∧ lobby.step s₁ e = some (s₁', o) ∧ (s₁.rooms.logOf r).length = i ∧
    s₁'.rooms.logOf r = s₁.rooms.logOf r ++ [x] ∧ s₁.rooms.Member x.playerId r

section

variable {s s' : Lobby} {p r : ℕ} {request : Request} {message : Str} {e : Lobby.Event}
  {o : Option Response}

/-- A message is answered with the status the room interface gives. -/
theorem answer_message (h : lobby.step s (.request p request) = some (s', o))
    (htells : request.Tells r message) :
    o = some (makeResponse (s.rooms.sendMessage r p message).1 []) := by
  obtain ⟨resp, rp, rfl, hprocess, -⟩ := Lobby.step_request h
  obtain ⟨hop, roomText, n, hbody, hroom, rfl⟩ := htells
  rw [process_sendMessage (s.processer p) hop hbody hroom] at hprocess
  rw [← (Prod.mk.inj (Except.ok.inj hprocess)).1, Lobby.playerId_processer]

theorem sendMessage_general (rooms : RoomInterface) (p : ℕ) (message : Str) :
    (rooms.sendMessage rooms.general.roomId p message).1 =
      if p ∈ rooms.general.client then .ok else .permissionDenied := by
  by_cases hp : p ∈ rooms.general.client <;>
    simp [RoomInterface.sendMessage, GeneralRoom.sendMessage_eq, hp]

/-- A game room hears everybody. -/
theorem sendMessage_game {rooms : RoomInterface} (wf : rooms.WellFormed) {g : GameRoom}
    (hg : g ∈ rooms.gameRoom) (p : ℕ) (message : Str) :
    (rooms.sendMessage g.roomId p message).1 = .ok := by
  obtain ⟨it, hit, -⟩ := wf.getGame_eq_some hg
  simp only [getGame] at hit
  simp [RoomInterface.sendMessage, wf.ne_general hg, hit, GameRoom.sendMessage_eq]

/-- A member of a room is heard in it. -/
theorem sendMessage_of_member {rooms : RoomInterface} (wf : rooms.WellFormed)
    (hroom : rooms.HasRoom r) (hmem : rooms.Member p r) (message : Str) :
    (rooms.sendMessage r p message).1 = .ok := by
  rcases hroom with rfl | ⟨g, hg, rfl⟩
  · rw [sendMessage_general, if_pos]
    rcases hmem with ⟨-, hp⟩ | ⟨role, g, hg, hid, -⟩
    · exact hp
    · exact absurd hid (wf.ne_general hg)
  · exact sendMessage_game wf hg p message

/-- An entry is made by a message to an existing room. -/
theorem message_of_entry (h : lobby.step s e = some (s', o)) {x : ChatInformation}
    (hx : entry r (e, o) = some x) : ∃ p request message, e = .request p request ∧
      request.Tells r message ∧ s.rooms.HasRoom r ∧ x = ⟨p, message⟩ ∧
      ∃ resp, o = some resp ∧ resp.Answers .ok := by
  rcases Lobby.step_cases h with ⟨p, request, resp, rp, rfl, rfl, -, ho⟩ | ⟨p, rfl, rfl, -⟩
  · generalize s'.rooms = rooms' at ho
    cases ho with
    | connected | left | created | joined => simp [entry] at hx
    | @saidInGeneral roomText message n hop hbody hroom hid =>
      have htells : request.Tells (toSize n) message := ⟨hop, roomText, n, hbody, hroom, rfl⟩
      rw [entry_of_message htells] at hx
      obtain ⟨⟨-, rfl⟩, heq⟩ := Option.ite_none_right_eq_some.1 hx
      exact ⟨p, request, message, rfl, htells, Or.inl hid, (Option.some.inj heq).symm, _, rfl,
        by simp⟩
    | @saidInGame roomText message n it hop hbody hroom hid hit =>
      have htells : request.Tells (toSize n) message := ⟨hop, roomText, n, hbody, hroom, rfl⟩
      rw [entry_of_message htells] at hx
      obtain ⟨⟨-, rfl⟩, heq⟩ := Option.ite_none_right_eq_some.1 hx
      exact ⟨p, request, message, rfl, htells, Or.inr ⟨_, getGame_spec hit⟩,
        (Option.some.inj heq).symm, _, rfl, by simp⟩
    | @unchanged code _ hcode =>
      have hok : code ≠ .ok := ne_of_reportsChange hcode rfl
      simp [entry, hok] at hx
  · simp [entry] at hx

/-- What a chat gains in a step is the entry of the event. -/
theorem entry_of_gained (wf : s.rooms.WellFormed) (h : lobby.step s e = some (s', o))
    {x : ChatInformation} (hx : s'.rooms.logOf r = s.rooms.logOf r ++ [x]) :
    entry r (e, o) = some x := by
  rw [logOf_step wf h, List.append_cancel_left_eq] at hx
  exact Option.toList_eq_singleton_iff.1 hx

/-- A step is authorised exactly if its message, when it goes to a game room, comes from
inside. -/
theorem authorised_iff_step (wf : s.rooms.WellFormed) (h : lobby.step s e = some (s', o)) :
    Authorised s e o s' ↔ SentFromInside s e o s' := by
  refine ⟨?_, fun hinside => ⟨?_, ?_, ?_⟩⟩
  · rintro hauth p request r message rfl htells ⟨g, hg, rfl⟩
    by_contra hout
    have hnot : ¬s.rooms.Member p g.roomId := by
      rintro (⟨hid, -⟩ | hseat)
      · exact wf.ne_general hg hid
      · exact hout hseat
    obtain ⟨⟨resp, hresp, hdenied⟩, -⟩ :=
      hauth.stranger p request g.roomId message rfl htells (Or.inr ⟨g, hg, rfl⟩) hnot
    have hanswer := answer_message h htells
    rw [hresp, sendMessage_game wf hg, Option.some.injEq] at hanswer
    simp [hanswer] at hdenied
  · rintro p request r message rfl htells hroom hmem
    have hanswer := answer_message h htells
    rw [sendMessage_of_member wf hroom hmem message] at hanswer
    subst hanswer
    refine ⟨⟨_, rfl, by simp⟩, ?_, fun r' hne => ?_⟩
    · rw [logOf_step wf h, entry_of_message htells]
      simp
    · rw [logOf_step wf h, entry_of_message htells]
      simp [hne.symm]
  · rintro p request r message rfl htells hroom hnot
    have hanswer := answer_message h htells
    have hdenied : (s.rooms.sendMessage r p message).1 = .permissionDenied := by
      rcases hroom with rfl | ⟨g, hg, rfl⟩
      · rw [sendMessage_general, if_neg fun hp => hnot (Or.inl ⟨rfl, hp⟩)]
      · exact absurd (Or.inr (hinside p request _ message rfl htells ⟨g, hg, rfl⟩)) hnot
    rw [hdenied] at hanswer
    subst hanswer
    refine ⟨⟨_, rfl, by simp⟩, fun r' => ?_⟩
    rw [logOf_step wf h, entry_of_message htells]
    simp
  · intro r x hx
    obtain ⟨p, request, message, rfl, htells, hroom, rfl, resp, hresp, hok⟩ :=
      message_of_entry h (entry_of_gained wf h hx)
    rcases hroom with rfl | hgame
    · have hanswer := answer_message h htells
      rw [hresp, sendMessage_general, Option.some.injEq] at hanswer
      by_cases hp : p ∈ s.rooms.general.client
      · exact Or.inl ⟨rfl, hp⟩
      · simp [hanswer, hp] at hok
    · exact Or.inr (hinside p request r message rfl htells hgame)

end

/-- Every entry of a chat was added by a step of the run. -/
theorem gained_of_run {tr : List (Lobby.Event × Option Response)} {s : Lobby}
    (h : lobby.Run tr s) (r : ℕ) : ∀ i x, (s.rooms.logOf r)[i]? = some x →
      ∃ tr₁ s₁ e o s₁', tr₁ ++ [(e, o)] <+: tr ∧ lobby.Run tr₁ s₁ ∧
        lobby.step s₁ e = some (s₁', o) ∧ (s₁.rooms.logOf r).length = i ∧
        s₁'.rooms.logOf r = s₁.rooms.logOf r ++ [x] := by
  refine h.invariant_trace (I := fun tr s => ∀ i x, (s.rooms.logOf r)[i]? = some x →
    ∃ tr₁ s₁ e o s₁', tr₁ ++ [(e, o)] <+: tr ∧ lobby.Run tr₁ s₁ ∧
      lobby.step s₁ e = some (s₁', o) ∧ (s₁.rooms.logOf r).length = i ∧
      s₁'.rooms.logOf r = s₁.rooms.logOf r ++ [x]) ?_ fun tr s e s' o hr ih hstep i x hx => ?_
  · intro i x hx
    have hempty : lobby.init.rooms.logOf r = [] := ite_self []
    simp [hempty] at hx
  · have hlog := logOf_step (Lobby.wellFormed_of_run hr) hstep r
    rw [hlog] at hx
    rcases Nat.lt_or_ge i (s.rooms.logOf r).length with hlt | hge
    · rw [List.getElem?_append_left hlt] at hx
      obtain ⟨tr₁, s₁, e₁, o₁, s₁', hpre, hrest⟩ := ih i x hx
      exact ⟨tr₁, s₁, e₁, o₁, s₁', hpre.trans (List.prefix_append _ _), hrest⟩
    · rw [List.getElem?_append_right hge] at hx
      cases hentry : entry r (e, o) with
      | none => simp [hentry] at hx
      | some y =>
        obtain ⟨hi, rfl⟩ : i - (s.rooms.logOf r).length = 0 ∧ y = x := by
          rw [hentry, Option.toList_some, List.getElem?_singleton] at hx
          simpa using hx
        exact ⟨tr, s, e, o, s', List.prefix_refl _, hr, hstep, by omega, by rw [hlog, hentry]; rfl⟩

/-- The chats of a run are authorised, at every step and hence for every entry, if and
only if every message to a game room is sent from inside. -/
theorem authorised_iff {tr : List (Lobby.Event × Option Response)} {s : Lobby}
    (h : lobby.Run tr s) :
    lobby.Along Authorised tr ∧ WrittenByMembers tr s ↔ lobby.Along SentFromInside tr := by
  have hcongr := Machine.along_congr (fun _ _ _ _ _ hrun hstep =>
    authorised_iff_step (Lobby.wellFormed_of_run hrun) hstep) tr
  rw [← hcongr]
  refine ⟨fun hauth => hauth.1, fun hauth => ⟨hauth, fun r i x hx => ?_⟩⟩
  obtain ⟨tr₁, s₁, e, o, s₁', hpre, hr, hstep, hi, hgained⟩ := gained_of_run h r i x hx
  exact ⟨tr₁, s₁, e, o, s₁', hpre, hr, hstep, hi, hgained,
    (hauth tr₁ s₁ e o s₁' hpre hr hstep).gained r x hgained⟩

/-- A player of a game writes in it. -/
theorem authorised_iff_player : ∃ tr s, lobby.Run tr s ∧ s.rooms.logOf 1 = [⟨1, lit "go"⟩] ∧
    (lobby.Along Authorised tr ∧ WrittenByMembers tr s ↔ lobby.Along SentFromInside tr) := by
  have hrun := Machine.run_of_isSome lobby
    [.request 1 (makeRequest .createGame [lit "duel", lit "0", lit "0", lit "30"]),
      .request 1 (makeRequest .sendMessage [lit "1", lit "go"])] (by decide +kernel)
  exact ⟨_, _, hrun, by decide +kernel, authorised_iff hrun⟩

/-- A client that is in no room writes in a game's chat. -/
theorem heard_from_outside : ∃ tr s, lobby.Run tr s ∧
    ¬(lobby.Along Authorised tr ∧ WrittenByMembers tr s) := by
  obtain ⟨tr, s, hrun, hroom, hgeneral, hgame, hok⟩ : ∃ tr s, lobby.Run tr s ∧
      (∃ g ∈ s.rooms.gameRoom, g.roomId = 1) ∧ 2 ∉ s.rooms.general.client ∧
      ¬s.rooms.isInRoom 2 ∧ (s.rooms.sendMessage 1 2 (lit "boo")).1 = .ok := by
    have hrun := Machine.run_of_isSome lobby
      [.request 1 (makeRequest .createGame [lit "duel", lit "0", lit "0", lit "30"])]
      (by decide +kernel)
    exact ⟨_, _, hrun, by decide +kernel, by decide +kernel, by decide +kernel, by decide +kernel⟩
  have htells : (makeRequest .sendMessage [lit "1", lit "boo"]).Tells 1 (lit "boo") :=
    ⟨rfl, lit "1", 1, Body.content_ofList _, by decide +kernel, by decide +kernel⟩
  obtain ⟨s', o, hstep⟩ :=
    Lobby.enabled s (.request 2 (makeRequest .sendMessage [lit "1", lit "boo"]))
  refine ⟨_, s', hrun.snoc hstep, fun h => ?_⟩
  have hauth := ((Machine.along_snoc hrun hstep).1 h.1).2
  have hstranger : ¬s.rooms.Member 2 1 := by
    rintro (⟨-, hmem⟩ | ⟨role, hseat⟩)
    · exact hgeneral hmem
    · exact hgame (isInRoom_iff.2 ⟨1, role, hseat⟩)
  obtain ⟨⟨resp, hresp, hdenied⟩, -⟩ := hauth.stranger 2 _ 1 _ rfl htells (Or.inr hroom) hstranger
  have hanswer := answer_message hstep htells
  rw [hresp, hok, Option.some.injEq] at hanswer
  simp [hanswer] at hdenied

end SpaceBattle
