import SpaceBattle.Rooms

/-!
# Who sits where

`Seated` is the relation between clients, game rooms and roles the concrete vectors hold.
`WellFormed` is what the operations maintain : the ids of the game rooms are their
positions, counted from one, no client sits twice, and no room has more than two players.

Under it every operation on the game rooms is a map over them, or adds one : a write
through an iterator (`assign_eq_mapGame`), the removal of a client, which stops at the first
seat it finds (`removeFromGame_eq_mapGame`), and `create_game`. For each there is a lemma
that says who sits where after it (`seated_say`, `seated_without`, `seated_seat`,
`seated_createGame`), and the lemma that it keeps the rooms well formed follows.
-/

namespace SpaceBattle

open Cpp

namespace RoomInterface

/-! ## Seats -/

/-- The client sits in the game room with this id, in this role. -/
def Seated (rooms : RoomInterface) (p r : ℕ) (role : Role) : Prop :=
  ∃ g ∈ rooms.gameRoom, g.roomId = r ∧ p ∈ g.occupants role

theorem isInRoom_iff {rooms : RoomInterface} {p : ℕ} :
    rooms.isInRoom p ↔ ∃ r role, rooms.Seated p r role := by
  simp only [isInRoom, findIf_isSome_iff, GameRoom.isInRoom_iff, Seated]
  refine ⟨fun ⟨g, hg, role, hp⟩ => ⟨g.roomId, role, g, hg, rfl, hp⟩, ?_⟩
  rintro ⟨-, role, g, hg, -, hp⟩
  exact ⟨g, hg, role, hp⟩

/-! ## Well-formed rooms -/

/-- What every operation leaves in place. -/
structure WellFormed (rooms : RoomInterface) : Prop where
  general : rooms.general.roomId = 0
  /-- A game room's id is its position, counted from one. -/
  gameIds : rooms.gameRoom.map (·.roomId) = List.range' 1 rooms.gameRoom.length
  clients : rooms.general.client.Nodup
  occupants : ∀ g ∈ rooms.gameRoom, ∀ role, (g.occupants role).Nodup
  seat : ∀ {p r role r' role'}, rooms.Seated p r role → rooms.Seated p r' role' →
    r = r' ∧ role = role'
  players : ∀ g ∈ rooms.gameRoom, g.playerIds.length ≤ 2

namespace WellFormed

variable {rooms : RoomInterface}

theorem new : RoomInterface.new.WellFormed where
  general := rfl
  gameIds := rfl
  clients := List.nodup_nil
  occupants := by simp [RoomInterface.new]
  seat := by simp [RoomInterface.new, Seated]
  players := by simp [RoomInterface.new]

theorem nodup_gameIds (wf : rooms.WellFormed) : (rooms.gameRoom.map (·.roomId)).Nodup := by
  rw [wf.gameIds]
  exact List.nodup_range'

/-- The ids of the game rooms are the positive numbers up to their count. -/
theorem mem_gameIds (wf : rooms.WellFormed) {r : ℕ} :
    (∃ g ∈ rooms.gameRoom, g.roomId = r) ↔ 1 ≤ r ∧ r ≤ rooms.gameRoom.length := by
  rw [← List.mem_map, wf.gameIds, List.mem_range'_1]
  omega

theorem ne_general (wf : rooms.WellFormed) {g : GameRoom} (hg : g ∈ rooms.gameRoom) :
    g.roomId ≠ rooms.general.roomId := by
  have h := (wf.mem_gameIds.1 ⟨g, hg, rfl⟩).1
  rw [wf.general]
  omega

theorem eq_of_roomId (wf : rooms.WellFormed) {g g' : GameRoom} (hg : g ∈ rooms.gameRoom)
    (hg' : g' ∈ rooms.gameRoom) (h : g.roomId = g'.roomId) : g = g' :=
  List.inj_on_of_nodup_map wf.nodup_gameIds hg hg' h

end WellFormed

/-- The search for an id finds a room with that id. -/
theorem getGame_spec {rooms : RoomInterface} {r : ℕ} {it : Iterator GameRoom}
    (h : rooms.getGame r = some it) : it.value ∈ rooms.gameRoom ∧ it.value.roomId = r := by
  obtain ⟨hvec, hid, -⟩ := findIf_spec h
  exact ⟨hvec ▸ it.value_mem, by simpa using hid⟩

theorem getGame_eq_none_iff {rooms : RoomInterface} {r : ℕ} :
    rooms.getGame r = none ↔ ∀ g ∈ rooms.gameRoom, g.roomId ≠ r := by
  simp [getGame, findIf_eq_none_iff]

/-- In well-formed rooms the search for a room's id finds that room. -/
theorem WellFormed.getGame_eq_some {rooms : RoomInterface} (wf : rooms.WellFormed) {g : GameRoom}
    (hg : g ∈ rooms.gameRoom) : ∃ it, rooms.getGame g.roomId = some it ∧ it.value = g := by
  cases h : rooms.getGame g.roomId with
  | none => exact absurd rfl (getGame_eq_none_iff.1 h g hg)
  | some it =>
    obtain ⟨hmem, hid⟩ := getGame_spec h
    exact ⟨it, rfl, wf.eq_of_roomId hmem hg hid⟩

/-! ## Operations as maps -/

/-- The rooms with every game room changed by `F`. -/
def mapGame (rooms : RoomInterface) (F : GameRoom → GameRoom) : RoomInterface :=
  { rooms with gameRoom := rooms.gameRoom.map F }

@[simp] theorem general_mapGame (rooms : RoomInterface) (F : GameRoom → GameRoom) :
    (rooms.mapGame F).general = rooms.general :=
  rfl

/-- The change of one game room. -/
def atGame (r : ℕ) (f : GameRoom → GameRoom) (g : GameRoom) : GameRoom :=
  if g.roomId = r then f g else g

/-- A write through the iterator of a game changes the room with its id. -/
theorem WellFormed.assign_eq_mapGame {rooms : RoomInterface} (wf : rooms.WellFormed) {r : ℕ}
    {it : Iterator GameRoom} (h : rooms.getGame r = some it) (f : GameRoom → GameRoom) :
    ({ rooms with gameRoom := (it.assign (f it.value)).toVector } : RoomInterface) =
      rooms.mapGame (atGame r f) := by
  rw [toVector_assign wf.nodup_gameIds h f]
  rfl

/-- The removal takes the client out of every room, though it stops at its first seat. -/
theorem WellFormed.removeFromGame_eq_mapGame {rooms : RoomInterface} (wf : rooms.WellFormed)
    (p : ℕ) : (rooms.removeFromGame p).2 = rooms.mapGame (·.without p) := by
  unfold removeFromGame mapGame
  cases hfind : findIf (fun game => game.isInRoom p) rooms.gameRoom with
  | none =>
    have hout := findIf_eq_none_iff.1 hfind
    have hsame : rooms.gameRoom.map (·.without p) = rooms.gameRoom :=
      (List.map_congr_left fun g hg => GameRoom.without_of_not_isInRoom
        (by simp [hout g hg])).trans (List.map_id' _)
    rw [hsame]
  | some it =>
    obtain ⟨hvec, hin, hbefore⟩ := findIf_spec hfind
    obtain ⟨role, hrole⟩ := GameRoom.isInRoom_iff.1 hin
    have hmem : it.value ∈ rooms.gameRoom := hvec ▸ it.value_mem
    have hseat : rooms.Seated p it.value.roomId role := ⟨_, hmem, rfl, hrole⟩
    have hone : p ∈ it.value.playerIds → p ∉ it.value.viewerIds := fun hp hv =>
      absurd (wf.seat ⟨_, hmem, rfl, (show p ∈ it.value.occupants .player from hp)⟩
        ⟨_, hmem, rfl, (show p ∈ it.value.occupants .viewer from hv)⟩).2 (by simp)
    have hnodup := wf.nodup_gameIds
    have hbefore : it.before.map (·.without p) = it.before :=
      (List.map_congr_left fun g hg => GameRoom.without_of_not_isInRoom
        (by simp [hbefore g hg])).trans (List.map_id' _)
    -- the rooms after the first seat hold no other
    have hafter : it.after.map (·.without p) = it.after := by
      refine (List.map_congr_left fun g hg => GameRoom.without_of_not_isInRoom fun hg' => ?_).trans
        (List.map_id' _)
      obtain ⟨role', hrole'⟩ := GameRoom.isInRoom_iff.1 hg'
      have hg'' : g ∈ rooms.gameRoom := hvec ▸ Iterator.mem_toVector.2 (Or.inr (Or.inr hg))
      have hsame := (wf.seat hseat ⟨g, hg'', rfl, hrole'⟩).1
      rw [← hvec] at hnodup
      simp only [Iterator.toVector, List.map_append, List.map_cons, List.nodup_append,
        List.nodup_cons] at hnodup
      exact hnodup.2.1.1 (List.mem_map.2 ⟨g, hg, hsame.symm⟩)
    simp only [← hvec, Iterator.toVector, Iterator.assign, List.map_append, List.map_cons, hbefore,
      hafter, GameRoom.removeClient_eq_without hin hone]

/-- What holds of a room, and of the room changed if it has the id, holds after the change
of the room with that id. -/
theorem atGame_induction {P : GameRoom → Prop} {r : ℕ} {f : GameRoom → GameRoom} {g : GameRoom}
    (hf : g.roomId = r → P (f g)) (hg : P g) : P (atGame r f g) := by
  unfold atGame
  split
  · exact hf ‹_›
  · exact hg

/-- The change of one room keeps what it keeps of that room. -/
theorem atGame_congr {α : Type*} (v : GameRoom → α) {r : ℕ} {f : GameRoom → GameRoom}
    (hf : ∀ g, v (f g) = v g) (g : GameRoom) : v (atGame r f g) = v g :=
  atGame_induction (P := fun x => v x = v g) (fun _ => hf g) rfl

theorem seated_mapGame {rooms : RoomInterface} {F : GameRoom → GameRoom}
    (hid : ∀ g, (F g).roomId = g.roomId) {p r : ℕ} {role : Role} :
    (rooms.mapGame F).Seated p r role ↔
      ∃ g ∈ rooms.gameRoom, g.roomId = r ∧ p ∈ (F g).occupants role := by
  simp [Seated, mapGame, hid]

@[simp] theorem seated_withGeneral {rooms : RoomInterface} {g : GeneralRoom} {p r : ℕ}
    {role : Role} :
    ({ rooms with general := g } : RoomInterface).Seated p r role ↔ rooms.Seated p r role :=
  Iff.rfl

theorem seated_say {rooms : RoomInterface} (r p : ℕ) (message : Str) {q r' : ℕ} {role : Role} :
    (rooms.mapGame (atGame r (·.say p message))).Seated q r' role ↔ rooms.Seated q r' role := by
  rw [seated_mapGame (atGame_congr (·.roomId) fun g => g.roomId_say p message)]
  refine exists_congr fun g => and_congr_right fun _ => and_congr_right fun _ => ?_
  rw [atGame_congr (·.occupants role) fun g => by simp]

theorem seated_seat {rooms : RoomInterface} {r : ℕ} (hr : ∃ g ∈ rooms.gameRoom, g.roomId = r)
    (p : ℕ) (role : Role) {q r' : ℕ} {role' : Role} :
    (rooms.mapGame (atGame r (·.seat p role))).Seated q r' role' ↔
      rooms.Seated q r' role' ∨ (q = p ∧ r' = r ∧ role' = role) := by
  rw [seated_mapGame (atGame_congr (·.roomId) fun g => by simp)]
  refine ⟨?_, ?_⟩
  · rintro ⟨g, hg, rfl, hq⟩
    unfold atGame at hq
    split at hq
    · rw [GameRoom.occupants_seat] at hq
      split at hq
      · rcases List.mem_append.1 hq with hq | hq
        · exact Or.inl ⟨g, hg, rfl, hq⟩
        · exact Or.inr ⟨List.mem_singleton.1 hq, ‹_›, ‹role = role'›.symm⟩
      · exact Or.inl ⟨g, hg, rfl, hq⟩
    · exact Or.inl ⟨g, hg, rfl, hq⟩
  · rintro (⟨g, hg, rfl, hq⟩ | ⟨rfl, rfl, rfl⟩)
    · refine ⟨g, hg, rfl, ?_⟩
      refine atGame_induction (P := fun x => q ∈ x.occupants role') (fun _ => ?_) hq
      rw [GameRoom.occupants_seat]
      split <;> simp [hq]
    · obtain ⟨g, hg, rfl⟩ := hr
      refine ⟨g, hg, rfl, ?_⟩
      simp [atGame, GameRoom.occupants_seat]

theorem WellFormed.seated_without {rooms : RoomInterface} (wf : rooms.WellFormed) (p : ℕ)
    {q r : ℕ} {role : Role} :
    (rooms.mapGame (·.without p)).Seated q r role ↔ q ≠ p ∧ rooms.Seated q r role := by
  rw [seated_mapGame fun g => by simp]
  refine ⟨?_, ?_⟩
  · rintro ⟨g, hg, rfl, hq⟩
    rw [GameRoom.occupants_without, (wf.occupants g hg role).mem_erase_iff] at hq
    exact ⟨hq.1, g, hg, rfl, hq.2⟩
  · rintro ⟨hne, g, hg, rfl, hq⟩
    refine ⟨g, hg, rfl, ?_⟩
    rw [GameRoom.occupants_without, (wf.occupants g hg role).mem_erase_iff]
    exact ⟨hne, hq⟩

theorem seated_createGame {rooms : RoomInterface} (p : ℕ) (name : Str) (nbrViewer limitOfTime : ℕ)
    {q r : ℕ} {role : Role} :
    (rooms.createGame p name nbrViewer limitOfTime).2.Seated q r role ↔
      rooms.Seated q r role ∨ (q = p ∧ r = rooms.gameRoom.length + 1 ∧ role = .player) := by
  simp only [Seated, createGame_snd, List.mem_append, List.mem_singleton, or_and_right, exists_or,
    exists_eq_left, GameRoom.toRoom_seat]
  refine or_congr Iff.rfl ?_
  cases role <;> simp [GameRoom.seat, GameRoom.new, Room.new, GameRoom.occupants, eq_comm,
    and_comm]

/-! ## Well-formedness is kept -/

namespace WellFormed

variable {rooms : RoomInterface}

/-- Only the general room changes. -/
theorem withGeneral (wf : rooms.WellFormed) {g : GeneralRoom}
    (hid : g.roomId = rooms.general.roomId) (hclient : g.client.Nodup) :
    ({ rooms with general := g } : RoomInterface).WellFormed where
  general := hid.trans wf.general
  gameIds := wf.gameIds
  clients := hclient
  occupants := wf.occupants
  seat := wf.seat
  players := wf.players

/-- The game rooms change, but not their ids. -/
theorem mapGame (wf : rooms.WellFormed) {F : GameRoom → GameRoom}
    (hid : ∀ g, (F g).roomId = g.roomId)
    (hoccupants : ∀ g ∈ rooms.gameRoom, ∀ role, ((F g).occupants role).Nodup)
    (hseat : ∀ {p r role r' role'}, (rooms.mapGame F).Seated p r role →
      (rooms.mapGame F).Seated p r' role' → r = r' ∧ role = role')
    (hplayers : ∀ g ∈ rooms.gameRoom, (F g).playerIds.length ≤ 2) :
    (rooms.mapGame F).WellFormed where
  general := wf.general
  gameIds := by
    have hids : (fun g => g.roomId) ∘ F = fun g : GameRoom => g.roomId := funext hid
    simpa [RoomInterface.mapGame, hids] using wf.gameIds
  clients := wf.clients
  occupants := by simpa [RoomInterface.mapGame] using hoccupants
  seat := hseat
  players := by simpa [RoomInterface.mapGame] using hplayers

theorem say (wf : rooms.WellFormed) (r p : ℕ) (message : Str) :
    (rooms.mapGame (atGame r (·.say p message))).WellFormed := by
  refine wf.mapGame (atGame_congr (·.roomId) fun g => g.roomId_say p message)
    (fun g hg role => ?_)
    (fun h h' => wf.seat ((seated_say r p message).1 h) ((seated_say r p message).1 h'))
    (fun g hg => ?_)
  · rw [atGame_congr (·.occupants role) fun g => by simp]
    exact wf.occupants g hg role
  · rw [atGame_congr (f := (·.say p message)) (·.playerIds) fun _ => rfl]
    exact wf.players g hg

theorem without (wf : rooms.WellFormed) (p : ℕ) : (rooms.mapGame (·.without p)).WellFormed := by
  refine wf.mapGame (fun g => by simp) (fun g hg role => ?_)
    (fun h h' => wf.seat ((wf.seated_without p).1 h).2 ((wf.seated_without p).1 h').2)
    (fun g hg => ?_)
  · rw [GameRoom.occupants_without]
    exact (wf.occupants g hg role).erase p
  · exact List.length_erase_le.trans (wf.players g hg)

/-- A free client takes a place. -/
theorem seatAt (wf : rooms.WellFormed) {r p : ℕ} (hr : ∃ g ∈ rooms.gameRoom, g.roomId = r)
    {role : Role} (hfree : ¬rooms.isInRoom p)
    (hplace : ∀ g ∈ rooms.gameRoom, g.roomId = r → g.hasPlace role) :
    (rooms.mapGame (atGame r (·.seat p role))).WellFormed := by
  have hout : ∀ r' role', ¬rooms.Seated p r' role' := fun r' role' h =>
    hfree (isInRoom_iff.2 ⟨r', role', h⟩)
  refine wf.mapGame (atGame_congr (·.roomId) fun g => by simp) (fun g hg role' => ?_)
    (fun h h' => ?_) (fun g hg => ?_)
  · refine atGame_induction (P := fun x => (x.occupants role').Nodup) (fun _ => ?_)
      (wf.occupants g hg role')
    rw [GameRoom.occupants_seat]
    split
    · refine (wf.occupants g hg role').append (List.nodup_singleton p) fun q hq hp => ?_
      exact hout _ _ ⟨g, hg, rfl, List.mem_singleton.1 hp ▸ hq⟩
    · exact wf.occupants g hg role'
  · rcases (seated_seat hr p role).1 h with hold | ⟨rfl, rfl, rfl⟩
    · rcases (seated_seat hr p role).1 h' with hold' | ⟨rfl, rfl, rfl⟩
      · exact wf.seat hold hold'
      · exact absurd hold (hout _ _)
    · rcases (seated_seat hr _ _).1 h' with hold' | ⟨-, rfl, rfl⟩
      · exact absurd hold' (hout _ _)
      · exact ⟨rfl, rfl⟩
  · have hle := wf.players g hg
    refine atGame_induction (P := fun x => x.playerIds.length ≤ 2) (fun hid => ?_) hle
    have hroom := hplace g hg hid
    cases role with
    | viewer => exact hle
    | player =>
      have hne : g.playerIds.length ≠ 2 := by simpa [GameRoom.hasPlace] using hroom
      simp only [GameRoom.seat, List.length_append, List.length_singleton]
      omega

theorem createGame (wf : rooms.WellFormed) {p : ℕ} (hfree : ¬rooms.isInRoom p) (name : Str)
    (nbrViewer limitOfTime : ℕ) :
    (rooms.createGame p name nbrViewer limitOfTime).2.WellFormed where
  general := wf.general
  gameIds := by
    simp [RoomInterface.createGame, GameRoom.insertPlayer, GameRoom.new, Room.new, wf.gameIds,
      List.range'_concat, Nat.add_comm]
  clients := wf.clients
  occupants := by
    intro g hg role
    rcases List.mem_append.1 hg with hg | hg
    · exact wf.occupants g hg role
    · rw [List.mem_singleton.1 hg]
      cases role <;> simp [GameRoom.new, GameRoom.occupants]
  seat := by
    have hout : ∀ r' role', ¬rooms.Seated p r' role' := fun r' role' h =>
      hfree (isInRoom_iff.2 ⟨r', role', h⟩)
    intro q r role r' role' h h'
    rcases (seated_createGame p name nbrViewer limitOfTime).1 h with hold | ⟨rfl, rfl, rfl⟩
    · rcases (seated_createGame p name nbrViewer limitOfTime).1 h' with hold' | ⟨rfl, -, -⟩
      · exact wf.seat hold hold'
      · exact absurd hold (hout _ _)
    · rcases (seated_createGame _ name nbrViewer limitOfTime).1 h' with hold' | ⟨-, rfl, rfl⟩
      · exact absurd hold' (hout _ _)
      · exact ⟨rfl, rfl⟩
  players := by
    intro g hg
    rcases List.mem_append.1 hg with hg | hg
    · exact wf.players g hg
    · rw [List.mem_singleton.1 hg]
      simp [GameRoom.new]

end WellFormed

end RoomInterface

end SpaceBattle
