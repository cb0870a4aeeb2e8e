import SpaceBattle.Decisions

/-!
# Isolation of the rooms

A request is about one place at most, the general room or a game room, its `footprint`.
Two requests of different clients with disjoint footprints can be exchanged : either
order gives the same answers and the same state (`requests_independent`).

What a request does is a `Change` of a place of its footprint, and what it does depends
on the rooms as far as `Agree` compares them : the footprint, the list of the games, and
the seat of its own client (`local_of_request`). A change by another client, at a place
outside the footprint, leaves all of that alone (`Change.By.agree`), and two changes at
different places commute (`Change.apply_comm`).
-/

namespace SpaceBattle

open Cpp RequestProcesser RoomInterface

/-! ## Footprints -/

/-- A place where a request can read or write. -/
inductive Place
  | general
  | game (r : ℕ)
  deriving DecidableEq

/-- The game room with the id, if it exists. -/
def RoomInterface.placeOf (rooms : RoomInterface) (r : ℕ) : List Place :=
  match rooms.gameAt r with
  | none => []
  | some _ => [.game r]

/-- The game room the client sits in, if any. -/
def RoomInterface.seatOf (rooms : RoomInterface) (p : ℕ) : List Place :=
  (rooms.gameRoom.filter fun g => g.isInRoom p).map fun g => .game g.roomId

/-- The places a request of the client `p` is about. -/
def footprint (rooms : RoomInterface) (p : ℕ) (request : Request) : List Place :=
  match OpCode.ofCode request.header.opCode with
  | some .clientConnect => [.general]
  | some .nbrPeopleLoggedIn => [.general]
  | some .sendMessage =>
    match request.addressed 2 with
    | none => []
    | some r => if r = rooms.general.roomId then [.general] else rooms.placeOf r
  | some .joinAsPlayer => (request.addressed 1).toList.flatMap rooms.placeOf
  | some .joinAsViewer => (request.addressed 1).toList.flatMap rooms.placeOf
  | some .playerLoggedIn => (request.addressed 1).toList.flatMap rooms.placeOf
  | some .getGameStatus => (request.addressed 1).toList.flatMap rooms.placeOf
  | some .leave => rooms.seatOf p
  | _ => []

/-! ## Changes -/

/-- A change of one place, or of none. -/
inductive Change
  | nothing
  | general (f : GeneralRoom → GeneralRoom)
  | game (r : ℕ) (f : GameRoom → GameRoom)

namespace Change

def apply : Change → RoomInterface → RoomInterface
  | nothing, rooms => rooms
  | general f, rooms => { rooms with general := f rooms.general }
  | game r f, rooms => rooms.mapGame (atGame r f)

def places : Change → List Place
  | nothing => []
  | general _ => [.general]
  | game r _ => [.game r]

/-- The change keeps the ids and the names, and moves nobody but the client `p`. -/
def By (p : ℕ) : Change → Prop
  | nothing => True
  | general f => ∀ g, (f g).roomId = g.roomId
  | game _ f => ∀ g, (f g).roomId = g.roomId ∧ (f g).name = g.name ∧
      ∀ q, q ≠ p → ∀ role, q ∈ (f g).occupants role ↔ q ∈ g.occupants role

end Change

theorem atGame_comm {r r' : ℕ} (h : r ≠ r') {f f' : GameRoom → GameRoom}
    (hf : ∀ g, (f g).roomId = g.roomId) (hf' : ∀ g, (f' g).roomId = g.roomId) (g : GameRoom) :
    atGame r f (atGame r' f' g) = atGame r' f' (atGame r f g) := by
  by_cases hr : g.roomId = r
  · have hr' : g.roomId ≠ r' := fun hr' => h (hr.symm.trans hr')
    simp [atGame, hr, hf, h]
  · simp only [atGame, if_neg hr]
    by_cases hr' : g.roomId = r'
    · simp [hr', hf', Ne.symm h]
    · simp [hr, hr']

/-- Changes of different places commute. -/
theorem Change.apply_comm {p q : ℕ} {c d : Change} (hc : c.By p) (hd : d.By q)
    (h : c.places.Disjoint d.places) (rooms : RoomInterface) :
    c.apply (d.apply rooms) = d.apply (c.apply rooms) := by
  cases c with
  | nothing => rfl
  | general f =>
    cases d with
    | nothing => rfl
    | general f' => exact absurd (List.mem_singleton_self _) (h (List.mem_singleton_self _))
    | game r' f' => rfl
  | game r f =>
    cases d with
    | nothing => rfl
    | general f' => rfl
    | game r' f' =>
      have hne : r ≠ r' := by
        rintro rfl
        exact h (List.mem_singleton_self _) (List.mem_singleton_self _)
      simp only [Change.apply, mapGame, List.map_map]
      congr 1
      exact List.map_congr_left fun g _ =>
        atGame_comm hne (fun g => (hc g).1) (fun g => (hd g).1) g

/-! ## What a request can tell of the rooms -/

/-- The rooms look the same to the client `p` at the places of `F`. -/
structure Agree (p : ℕ) (F : List Place) (rooms rooms' : RoomInterface) : Prop where
  generalId : rooms'.general.roomId = rooms.general.roomId
  listing : rooms'.gameRoom.map (fun g => (g.roomId, g.name)) =
    rooms.gameRoom.map fun g => (g.roomId, g.name)
  seat : ∀ r role, rooms'.Seated p r role ↔ rooms.Seated p r role
  general : .general ∈ F → rooms'.general = rooms.general
  game : ∀ r, .game r ∈ F → rooms'.gameAt r = rooms.gameAt r

/-- What another client changes outside the places cannot be told. -/
theorem Change.By.agree {p q : ℕ} {c : Change} (hc : c.By q) (hne : p ≠ q) {F : List Place}
    (h : c.places.Disjoint F) (rooms : RoomInterface) : Agree p F rooms (c.apply rooms) := by
  cases c with
  | nothing => exact ⟨rfl, rfl, fun _ _ => Iff.rfl, fun _ => rfl, fun _ _ => rfl⟩
  | general f =>
    exact ⟨hc _, rfl, fun _ _ => Iff.rfl,
      fun hF => absurd hF (h (List.mem_singleton_self _)), fun _ _ => rfl⟩
  | game r f =>
    have hid : ∀ g, (atGame r f g).roomId = g.roomId :=
      atGame_congr (·.roomId) fun g => (hc g).1
    refine ⟨rfl, ?_, fun r' role => ?_, fun _ => rfl, fun r' hr' => ?_⟩
    · simp only [Change.apply, mapGame, List.map_map]
      refine List.map_congr_left fun g _ => ?_
      simp only [Function.comp_apply, hid, Prod.mk.injEq, true_and]
      exact atGame_congr (·.name) (fun g => (hc g).2.1) g
    · rw [Change.apply, seated_mapGame hid]
      refine exists_congr fun g => and_congr_right fun _ => and_congr_right fun _ => ?_
      exact atGame_induction (P := fun x => p ∈ x.occupants role ↔ p ∈ g.occupants role)
        (fun _ => (hc g).2.2 p hne role) Iff.rfl
    · have hr : r' ≠ r := by
        rintro rfl
        exact h (List.mem_singleton_self _) hr'
      rw [Change.apply, gameAt_mapGame hid]
      cases hat : rooms.gameAt r' with
      | none => rfl
      | some g =>
        rw [Option.map_some, atGame, if_neg fun hg => hr ((gameAt_spec hat).2.symm.trans hg)]

namespace Agree

variable {p : ℕ} {F : List Place} {rooms rooms' : RoomInterface}

theorem refl : Agree p F rooms rooms :=
  ⟨rfl, rfl, fun _ _ => Iff.rfl, fun _ => rfl, fun _ _ => rfl⟩

theorem length_eq (h : Agree p F rooms rooms') :
    rooms'.gameRoom.length = rooms.gameRoom.length := by
  simpa using congrArg List.length h.listing

theorem isInRoom_eq (h : Agree p F rooms rooms') : rooms'.isInRoom p = rooms.isInRoom p := by
  rw [Bool.eq_iff_iff, isInRoom_iff, isInRoom_iff]
  simp only [h.seat]

theorem exists_game_iff (h : Agree p F rooms rooms') (r : ℕ) :
    (∃ g ∈ rooms'.gameRoom, g.roomId = r) ↔ ∃ g ∈ rooms.gameRoom, g.roomId = r := by
  have hids : rooms'.gameRoom.map (·.roomId) = rooms.gameRoom.map (·.roomId) := by
    simpa [List.map_map, Function.comp_def] using congrArg (List.map Prod.fst) h.listing
  rw [← List.mem_map, ← List.mem_map, hids]

/-- An addressed game is the same, or there is none. -/
theorem gameAt_eq (h : Agree p F rooms rooms') {r : ℕ} (hr : rooms.placeOf r ⊆ F) :
    rooms'.gameAt r = rooms.gameAt r := by
  cases hat : rooms.gameAt r with
  | some g =>
    rw [h.game r (hr (by simp [placeOf, hat])), hat]
  | none =>
    rw [gameAt_eq_none_iff] at hat ⊢
    intro g hg hid
    obtain ⟨g', hg', hid'⟩ := (h.exists_game_iff r).1 ⟨g, hg, hid⟩
    exact hat g' hg' hid'

end Agree

/-! ## What a request does -/

/-- The client's own removal changes the room it sits in. -/
theorem RoomInterface.WellFormed.without_eq_atGame {rooms : RoomInterface}
    (wf : rooms.WellFormed) {p r : ℕ} {role : Role} (h : rooms.Seated p r role) :
    rooms.mapGame (·.without p) = rooms.mapGame (atGame r (·.without p)) := by
  unfold RoomInterface.mapGame
  congr 1
  refine List.map_congr_left fun g hg => ?_
  unfold atGame
  split
  · rfl
  · rename_i hid
    refine GameRoom.without_of_not_isInRoom fun hin => hid ?_
    obtain ⟨role', hrole'⟩ := GameRoom.isInRoom_iff.1 hin
    exact (wf.seat ⟨g, hg, rfl, hrole'⟩ h).1

theorem mapGame_without_of_not_isInRoom {rooms : RoomInterface} {p : ℕ}
    (h : ¬rooms.isInRoom p) : rooms.mapGame (·.without p) = rooms := by
  have hsame : rooms.gameRoom.map (·.without p) = rooms.gameRoom := by
    refine (List.map_congr_left fun g hg => GameRoom.without_of_not_isInRoom fun hin => ?_).trans
      (List.map_id' _)
    obtain ⟨role, hrole⟩ := GameRoom.isInRoom_iff.1 hin
    exact h (isInRoom_iff.2 ⟨g.roomId, role, g, hg, rfl, hrole⟩)
  rw [mapGame, hsame]

theorem game_mem_seatOf {rooms : RoomInterface} {p r : ℕ} {role : Role}
    (h : rooms.Seated p r role) : .game r ∈ rooms.seatOf p := by
  obtain ⟨g, hg, rfl, hp⟩ := h
  exact List.mem_map.2 ⟨g, List.mem_filter.2 ⟨hg, GameRoom.isInRoom_iff.2 ⟨role, hp⟩⟩, rfl⟩

theorem Change.by_say (p r : ℕ) (message : Str) : (game r (·.say p message)).By p :=
  fun _ => ⟨rfl, rfl, fun _ _ _ => by simp⟩

theorem Change.by_seat (p r : ℕ) (role : Role) : (game r (·.seat p role)).By p := by
  refine fun g => ⟨by simp, by cases role <;> rfl, fun q hq role' => ?_⟩
  rw [GameRoom.occupants_seat]
  split <;> simp [hq]

theorem Change.by_without (p r : ℕ) : (game r (·.without p)).By p :=
  fun g => ⟨rfl, rfl, fun q hq role => by rw [GameRoom.occupants_without, List.mem_erase_of_ne hq]⟩

/-- One change, within the footprint, and one answer, in all the rooms the client cannot
tell apart there. -/
def Local (rp : RequestProcesser) (rooms : RoomInterface) (request : Request) : Prop :=
  ∃ resp rp' c, Change.By rp.playerId c ∧ c.places ⊆ footprint rooms rp.playerId request ∧
    ∀ rooms', rooms'.WellFormed →
      Agree rp.playerId (footprint rooms rp.playerId request) rooms rooms' →
        rp.process rooms' request = .ok (resp, rp', c.apply rooms')

section

variable {rp : RequestProcesser} {rooms : RoomInterface} {request : Request}

/-- A request that only answers. -/
theorem Local.answer (resp : Response) (h : ∀ rooms', rooms'.WellFormed →
    Agree rp.playerId (footprint rooms rp.playerId request) rooms rooms' →
      rp.process rooms' request = .ok (resp, rp, rooms')) : Local rp rooms request :=
  ⟨resp, rp, .nothing, trivial, List.nil_subset _, h⟩

theorem local_connectUser (hop : OpCode.ofCode request.header.opCode = some .clientConnect) :
    Local rp rooms request := by
  have hfoot : footprint rooms rp.playerId request = [.general] := by simp [footprint, hop]
  by_cases hlen : request.body.content.length ≠ 1
  · exact .answer (formatError 0x01) fun rooms' _ _ => by
      simp [process, hop, connectUser_table, hlen]
  by_cases hmem : rp.playerId ∈ rooms.general.client
  · refine .answer (makeResponse .clientAlreadyInRoom []) fun rooms' _ hagree => ?_
    have hgeneral := hagree.general (by simp [hfoot])
    simp [process, hop, connectUser_table, hlen, hgeneral, hmem]
  · refine ⟨makeResponse .clientConnected [digits rp.playerId, digits rooms.general.roomId],
      { rp with nickname := request.body.content.headD [] }, .general (·.enter rp.playerId),
      fun _ => rfl, by simp [hfoot, Change.places], fun rooms' _ hagree => ?_⟩
    have hgeneral := hagree.general (by simp [hfoot])
    simp [process, hop, connectUser_table, hlen, hgeneral, hmem, Change.apply]

theorem local_sendMessage (hop : OpCode.ofCode request.header.opCode = some .sendMessage) :
    Local rp rooms request := by
  cases hr : request.addressed 2 with
  | none =>
    refine .answer (formatError (if request.body.content.length = 2 then 0x02 else 0x01))
      fun rooms' wf' _ => ?_
    simp [process, hop, sendMessage_table wf', hr, Except.map]
  | some r =>
    by_cases hid : r = rooms.general.roomId
    · have hfoot : footprint rooms rp.playerId request = [.general] := by
        simp [footprint, hop, hr, hid]
      by_cases hmem : rp.playerId ∈ rooms.general.client
      · refine ⟨makeResponse .ok [], rp,
          .general (·.say rp.playerId (request.body.content.getD 1 [])), fun _ => rfl,
          by simp [hfoot, Change.places], fun rooms' wf' hagree => ?_⟩
        have hgeneral := hagree.general (by simp [hfoot])
        simp [process, hop, sendMessage_table wf', hr, hid, hgeneral, hmem, Except.map,
          Change.apply]
      · refine .answer (makeResponse .permissionDenied []) fun rooms' wf' hagree => ?_
        have hgeneral := hagree.general (by simp [hfoot])
        simp [process, hop, sendMessage_table wf', hr, hid, hgeneral, hmem, Except.map]
    · have hfoot : footprint rooms rp.playerId request = rooms.placeOf r := by
        simp [footprint, hop, hr, hid]
      cases hat : rooms.gameAt r with
      | none =>
        refine .answer (makeResponse .roomNotFound []) fun rooms' wf' hagree => ?_
        have hgame := (hagree.gameAt_eq (r := r) (by simp [hfoot])).trans hat
        simp [process, hop, sendMessage_table wf', hr, hid, hagree.generalId, hgame, Except.map]
      | some g =>
        refine ⟨makeResponse .ok [], rp,
          .game r (·.say rp.playerId (request.body.content.getD 1 [])), Change.by_say _ _ _,
          by simp [hfoot, placeOf, hat, Change.places], fun rooms' wf' hagree => ?_⟩
        have hgame := (hagree.gameAt_eq (r := r) (by simp [hfoot])).trans hat
        simp [process, hop, sendMessage_table wf', hr, hid, hagree.generalId, hgame, Except.map,
          Change.apply]

theorem local_leave (hop : OpCode.ofCode request.header.opCode = some .leave) :
    Local rp rooms request := by
  have hfoot : footprint rooms rp.playerId request = rooms.seatOf rp.playerId := by
    simp [footprint, hop]
  by_cases hin : rooms.isInRoom rp.playerId
  · obtain ⟨r, role, hseated⟩ := isInRoom_iff.1 hin
    refine ⟨makeResponse .leaveSuccess [], rp, .game r (·.without rp.playerId),
      Change.by_without _ _, ?_, fun rooms' wf' hagree => ?_⟩
    · rw [hfoot]
      exact List.cons_subset.2 ⟨game_mem_seatOf hseated, List.nil_subset _⟩
    · have hseated' := (hagree.seat r role).2 hseated
      simp [process, hop, leave, wf'.removeFromGame_eq_mapGame, wf'.without_eq_atGame hseated',
        Change.apply]
  · refine .answer (makeResponse .leaveSuccess []) fun rooms' wf' hagree => ?_
    have hin' : ¬rooms'.isInRoom rp.playerId := by rwa [hagree.isInRoom_eq]
    simp [process, hop, leave, wf'.removeFromGame_eq_mapGame,
      mapGame_without_of_not_isInRoom hin']

theorem local_joinGameRoom (role : Role)
    (hop : OpCode.ofCode request.header.opCode = some (joinCode role)) :
    Local rp rooms request := by
  have hprocess : ∀ rooms', rp.process rooms' request =
      (rp.joinGameRoom rooms' request (role = .player)).map fun r => (r.1, rp, r.2) := fun _ =>
    process_joinGameRoom rp _ (OpCode.ofCode_eq_some_iff.1 hop)
  have hfoot : footprint rooms rp.playerId request =
      (request.addressed 1).toList.flatMap rooms.placeOf := by
    cases role <;> simp [footprint, hop, joinCode]
  by_cases hin : rooms.isInRoom rp.playerId
  · refine .answer (makeResponse .permissionDenied []) fun rooms' wf' hagree => ?_
    have hin' := hagree.isInRoom_eq.trans hin
    simp [hprocess, joinGameRoom_table wf', hin', Except.map]
  cases hr : request.addressed 1 with
  | none =>
    refine .answer (formatError 0x01) fun rooms' wf' hagree => ?_
    simp [hprocess, joinGameRoom_table wf', hagree.isInRoom_eq, hin, hr, Except.map]
  | some r =>
    rw [hr] at hfoot
    cases hat : rooms.gameAt r with
    | none =>
      refine .answer (makeResponse .roomNotFound []) fun rooms' wf' hagree => ?_
      have hgame := (hagree.gameAt_eq (r := r) (by simp [hfoot])).trans hat
      simp [hprocess, joinGameRoom_table wf', hagree.isInRoom_eq, hin, hr, hgame, Except.map]
    | some g =>
      by_cases hplace : g.hasPlace role
      · refine ⟨makeResponse .clientJoinGame
            (gameInformation (g.seat rp.playerId role).getGameInfo), rp,
          .game r (·.seat rp.playerId role), Change.by_seat _ _ _,
          by simp [hfoot, placeOf, hat, Change.places], fun rooms' wf' hagree => ?_⟩
        have hgame := (hagree.gameAt_eq (r := r) (by simp [hfoot])).trans hat
        simp [hprocess, joinGameRoom_table wf', hagree.isInRoom_eq, hin, hr, hgame, hplace,
          Except.map, Change.apply]
      · refine .answer (makeResponse .tooManyClients []) fun rooms' wf' hagree => ?_
        have hgame := (hagree.gameAt_eq (r := r) (by simp [hfoot])).trans hat
        simp [hprocess, joinGameRoom_table wf', hagree.isInRoom_eq, hin, hr, hgame, hplace,
          Except.map]

theorem local_askGame (answer : GameInformation → Response)
    (hprocess : ∀ rooms', rp.process rooms' request =
      (askGame rooms' request answer).map fun r => (r, rp, rooms'))
    (hfoot : footprint rooms rp.playerId request =
      (request.addressed 1).toList.flatMap rooms.placeOf) : Local rp rooms request := by
  cases hr : request.addressed 1 with
  | none =>
    refine .answer (formatError 0x01) fun rooms' _ _ => ?_
    simp [hprocess, askGame_table, hr, Except.map]
  | some r =>
    rw [hr] at hfoot
    have hplace : rooms.placeOf r ⊆ footprint rooms rp.playerId request := by simp [hfoot]
    cases hat : rooms.gameAt r with
    | none =>
      refine .answer (makeResponse .roomNotFound []) fun rooms' _ hagree => ?_
      simp [hprocess, askGame_table, hr, hagree.gameAt_eq hplace, hat, Except.map]
    | some g =>
      refine .answer (answer g.getGameInfo) fun rooms' _ hagree => ?_
      simp [hprocess, askGame_table, hr, hagree.gameAt_eq hplace, hat, Except.map]

end

theorem Agree.getGameInfo_eq {p : ℕ} {F : List Place} {rooms rooms' : RoomInterface}
    (h : Agree p F rooms rooms') :
    RequestProcesser.getGameInfo rooms' = RequestProcesser.getGameInfo rooms := by
  have hlist : ∀ rooms : RoomInterface, rooms.getGameInfo =
      (rooms.gameRoom.map fun g => (g.roomId, g.name)).map fun x => ⟨x.1, x.2, .ok⟩ := by
    intro rooms
    simp [RoomInterface.getGameInfo, GameRoom.getRoomInfo]
  simp only [RequestProcesser.getGameInfo, hlist, h.listing]

/-- Every request but `CREATE_GAME` is local to its footprint. -/
theorem local_of_request (rp : RequestProcesser) (rooms : RoomInterface) {request : Request}
    (hop : request.header.opCode ≠ OpCode.createGame.code) : Local rp rooms request := by
  have hdenied (h : ∀ rooms', rp.process rooms' request = .ok (makeResponse .permissionDenied
      [lit "tes", lit "vraiment", lit "trop", lit "con"], rp, rooms')) : Local rp rooms request :=
    .answer _ fun rooms' _ _ => h rooms'
  cases hcode : OpCode.ofCode request.header.opCode with
  | none => exact hdenied fun _ => by simp [process, hcode]
  | some op =>
    cases op with
    | clientConnect => exact local_connectUser hcode
    | sendMessage => exact local_sendMessage hcode
    | leave => exact local_leave hcode
    | createGame => exact absurd (OpCode.ofCode_eq_some_iff.1 hcode) hop
    | joinAsPlayer => exact local_joinGameRoom .player hcode
    | joinAsViewer => exact local_joinGameRoom .viewer hcode
    | playerLoggedIn =>
      exact local_askGame (fun info => makeResponse .playerNumber [digits info.nbrPlayer])
        (fun _ => by simp [process, hcode, getPlayerNbr]) (by simp [footprint, hcode])
    | getGameStatus =>
      exact local_askGame (fun info => makeResponse .gameStatus [digits info.status.toUnsigned])
        (fun _ => by simp [process, hcode, getGameStatus]) (by simp [footprint, hcode])
    | nbrPeopleLoggedIn =>
      refine .answer (getNbrClientConnected rooms) fun rooms' _ hagree => ?_
      have hgeneral := hagree.general (by simp [footprint, hcode])
      simp [process, hcode, getNbrClientConnected, getClientConnected, hgeneral]
    | getGameInfo =>
      refine .answer (RequestProcesser.getGameInfo rooms) fun rooms' _ hagree => ?_
      simp [process, hcode, hagree.getGameInfo_eq]
    | getNbrGameCreated =>
      refine .answer (getGameCreated rooms) fun rooms' _ hagree => ?_
      simp [process, hcode, getGameCreated, nbrGameCreated, hagree.length_eq]
    | _ => exact hdenied fun _ => by simp [process, hcode]

/-! ## Exchange -/

theorem Lobby.processer_update_of_ne {p q : ℕ} (h : q ≠ p) (s : Lobby) (rooms : RoomInterface)
    (nickname : Str) : (⟨rooms, Function.update s.nickname p nickname⟩ : Lobby).processer q =
      s.processer q := by
  simp [Lobby.processer, h]

/-- In every reachable state, two requests of different clients that create no game and
have disjoint footprints are independent : processed in either order they get the same
answers and lead to the same state. -/
theorem requests_independent {tr : List (Lobby.Event × Option Response)} {s : Lobby}
    (h : lobby.Run tr s) {p q : ℕ} (hne : p ≠ q) {a b : Request}
    (ha : a.header.opCode ≠ OpCode.createGame.code)
    (hb : b.header.opCode ≠ OpCode.createGame.code)
    (hdisjoint : ∀ x ∈ footprint s.rooms p a, x ∉ footprint s.rooms q b) :
    lobby.Independent s (.request p a) (.request q b) := by
  have wf := Lobby.wellFormed_of_run h
  obtain ⟨ra, pa, ca, hca, hplacesA, hprocessA⟩ := local_of_request (s.processer p) s.rooms ha
  obtain ⟨rb, pb, cb, hcb, hplacesB, hprocessB⟩ := local_of_request (s.processer q) s.rooms hb
  simp only [Lobby.playerId_processer] at hca hcb hplacesA hplacesB hprocessA hprocessB
  have hcomm : cb.apply (ca.apply s.rooms) = ca.apply (cb.apply s.rooms) :=
    Change.apply_comm hcb hca
      (fun x hx hx' => hdisjoint x (hplacesA hx') (hplacesB hx)) s.rooms
  have hfirstA := Lobby.step_of_process (hprocessA _ wf .refl)
  have hfirstB := Lobby.step_of_process (hprocessB _ wf .refl)
  -- each of the second requests sees rooms its client cannot tell from `s.rooms`
  have hsecondB := hprocessB _ (Lobby.wellFormed_of_step wf hfirstA)
    (hca.agree hne.symm (fun x hx hx' => hdisjoint x (hplacesA hx) hx') s.rooms)
  have hsecondA := hprocessA _ (Lobby.wellFormed_of_step wf hfirstB)
    (hcb.agree hne (fun x hx hx' => hdisjoint x hx' (hplacesB hx)) s.rooms)
  rw [← Lobby.processer_update_of_ne hne.symm s (ca.apply s.rooms) pa.nickname] at hsecondB
  rw [← Lobby.processer_update_of_ne hne s (cb.apply s.rooms) pb.nickname] at hsecondA
  refine ⟨_, _, _, ra, rb, hfirstA, Lobby.step_of_process hsecondB, hfirstB, ?_⟩
  rw [Lobby.step_of_process hsecondA, hcomm, Function.update_comm hne.symm]

/-- A player of one game leaves while another client joins a second game. -/
theorem requests_independent_leave_join : ∃ tr s, lobby.Run tr s ∧
    lobby.Independent s (.request 1 (makeRequest .leave []))
      (.request 3 (makeRequest .joinAsPlayer [lit "2"])) :=
  ⟨_, _, Machine.run_of_isSome lobby
      [.request 1 (makeRequest .createGame [lit "duel", lit "1", lit "5", lit "30"]),
        .request 2 (makeRequest .createGame [lit "duel", lit "1", lit "5", lit "30"])]
      (by decide +kernel),
    requests_independent (Machine.run_of_isSome lobby
      [.request 1 (makeRequest .createGame [lit "duel", lit "1", lit "5", lit "30"]),
        .request 2 (makeRequest .createGame [lit "duel", lit "1", lit "5", lit "30"])]
      (by decide +kernel)) (by decide) (by decide +kernel) (by decide +kernel)
      (by decide +kernel)⟩

end SpaceBattle
