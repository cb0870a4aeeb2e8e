import SpaceBattle.Lobby

/-!
# The connection pool

`InputConnectionPool` holds a `Protocol` for every live connection, and the rooms they
share. A connection gets as id the number of connections in the pool plus one, and the
id is what the rooms know its client by. Closing a connection removes it by its id.

The machine `pool` has the events of the pool : a connection is accepted, a request of a
live connection is processed, a live connection is lost, which is `on_read_fail` with a
close that succeeds. A connection is named by its handle, the number of connections
accepted before it; no handle is used twice (`Handles`), whatever the ids do.

To the rooms a pool is a lobby (`lobby_of_run`) : its connections are clients named by their
ids, and two connections with one id are one client.
-/

namespace SpaceBattle

open Cpp RequestProcesser

/-- `Protocol`, an entry of `m_input_collection` : the association's id is `m_id`. -/
structure Protocol where
  /-- The connection it holds, by the number of connections accepted before. -/
  handle : ℕ
  /-- `m_id`. -/
  id : ℕ
  requestProcesser : RequestProcesser
  deriving DecidableEq

/-- `Protocol::Protocol`. -/
def Protocol.new (handle id : ℕ) : Protocol :=
  ⟨handle, id, ⟨id, []⟩⟩

/-- `InputConnectionPool`. -/
structure InputConnectionPool where
  inputCollection : List Protocol
  roomInterface : RoomInterface
  /-- The number of connections accepted so far. -/
  accepted : ℕ
  deriving DecidableEq

namespace InputConnectionPool

/-- `InputConnectionPool::insert`, with the id it returns. -/
def insert (pool : InputConnectionPool) : ℕ × InputConnectionPool :=
  let id := pool.inputCollection.length + 1
  let protocol := Protocol.new pool.accepted id
  (id, { pool with
    inputCollection := pool.inputCollection ++ [protocol], accepted := pool.accepted + 1 })

/-- `InputConnectionPool::remove` : every entry with the id. -/
def remove (pool : InputConnectionPool) (id : ℕ) : InputConnectionPool :=
  { pool with inputCollection := pool.inputCollection.filter fun elem => elem.id ≠ id }

/-- The live connection with the handle. -/
def find (pool : InputConnectionPool) (handle : ℕ) : Option Protocol :=
  pool.inputCollection.find? fun c => c.handle = handle

/-- The pool after the request processer of a connection changed. -/
def assign (pool : InputConnectionPool) (handle : ℕ) (rp : RequestProcesser) :
    InputConnectionPool :=
  { pool with inputCollection := pool.inputCollection.map fun c =>
      if c.handle = handle then { c with requestProcesser := rp } else c }

/-- What can happen to the pool. -/
inductive Event
  | accept
  | request (handle : ℕ) (request : Request)
  | lost (handle : ℕ)
  deriving DecidableEq

/-- One event, and the answer to a request. -/
def step (pool : InputConnectionPool) : Event → Option (InputConnectionPool × Option Response)
  | .accept => some (pool.insert.2, none)
  | .request handle request =>
    match pool.find handle with
    | none => none
    | some c =>
      match c.requestProcesser.process pool.roomInterface request with
      | .error _ => none
      | .ok (resp, rp, rooms) =>
        some ({ pool.assign handle rp with roomInterface := rooms }, some resp)
  | .lost handle =>
    match pool.find handle with
    | none => none
    | some c =>
      let rooms := c.requestProcesser.removeFromRoom pool.roomInterface
      some (({ pool with roomInterface := rooms } : InputConnectionPool).remove c.id, none)

end InputConnectionPool

open InputConnectionPool

/-- The pool, from no connections. -/
def pool : Machine InputConnectionPool InputConnectionPool.Event (Option Response) :=
  ⟨⟨[], RoomInterface.new, 0⟩, InputConnectionPool.step⟩

namespace InputConnectionPool

/-! ## Steps -/

theorem find_spec {s : InputConnectionPool} {h : ℕ} {c : Protocol} (hfind : s.find h = some c) :
    c ∈ s.inputCollection ∧ c.handle = h :=
  ⟨List.mem_of_find?_eq_some hfind, by simpa using List.find?_some hfind⟩

/-- What a step does. -/
theorem step_cases {s s' : InputConnectionPool} {e : Event} {o : Option Response}
    (hstep : pool.step s e = some (s', o)) :
    (e = .accept ∧ o = none ∧ s' = s.insert.2) ∨
    (∃ h request c resp rp rooms, e = .request h request ∧ o = some resp ∧ s.find h = some c ∧
      c.requestProcesser.process s.roomInterface request = .ok (resp, rp, rooms) ∧
      Outcome c.requestProcesser s.roomInterface request resp rp rooms ∧
      s' = { s.assign h rp with roomInterface := rooms }) ∨
    ∃ h c, e = .lost h ∧ o = none ∧ s.find h = some c ∧
      s' = ({ s with roomInterface := c.requestProcesser.removeFromRoom s.roomInterface } :
        InputConnectionPool).remove c.id := by
  cases e with
  | accept =>
    simp only [pool, step, Option.some.injEq, Prod.mk.injEq] at hstep
    exact Or.inl ⟨rfl, hstep.2.symm, hstep.1.symm⟩
  | request h request =>
    cases hfind : s.find h with
    | none => simp [pool, step, hfind] at hstep
    | some c =>
      obtain ⟨resp, rp, rooms, hprocess, ho⟩ :=
        process_outcome c.requestProcesser s.roomInterface request
      simp only [pool, step, hfind, hprocess, Option.some.injEq, Prod.mk.injEq] at hstep
      exact Or.inr (Or.inl ⟨h, request, c, resp, rp, rooms, rfl, hstep.2.symm, hfind, hprocess, ho,
        hstep.1.symm⟩)
  | lost h =>
    cases hfind : s.find h with
    | none => simp [pool, step, hfind] at hstep
    | some c =>
      simp only [pool, step, hfind, Option.some.injEq, Prod.mk.injEq] at hstep
      exact Or.inr (Or.inr ⟨h, c, rfl, hstep.2.symm, hfind, hstep.1.symm⟩)

/-- Handles and ids, the two names of a live connection. -/
def names (s : InputConnectionPool) : List (ℕ × ℕ) :=
  s.inputCollection.map fun c => (c.handle, c.id)

theorem mem_names {s : InputConnectionPool} {h i : ℕ} :
    (h, i) ∈ s.names ↔ ∃ c ∈ s.inputCollection, c.handle = h ∧ c.id = i := by
  simp [names]

theorem mem_names_of_mem {s : InputConnectionPool} {c : Protocol} (hc : c ∈ s.inputCollection) :
    (c.handle, c.id) ∈ s.names :=
  mem_names.2 ⟨c, hc, rfl, rfl⟩

theorem exists_find_iff {s : InputConnectionPool} {h : ℕ} :
    (∃ c, s.find h = some c) ↔ ∃ i, (h, i) ∈ s.names := by
  rw [← Option.isSome_iff_exists]
  simp [find, mem_names]

@[simp] theorem names_insert (s : InputConnectionPool) :
    s.insert.2.names = s.names ++ [(s.accepted, s.inputCollection.length + 1)] := by
  simp [names, insert, Protocol.new]

@[simp] theorem names_assign (s : InputConnectionPool) (h : ℕ) (rp : RequestProcesser)
    (rooms : RoomInterface) :
    ({ s.assign h rp with roomInterface := rooms } : InputConnectionPool).names = s.names := by
  simp only [names, assign, List.map_map]
  refine List.map_congr_left fun c _ => ?_
  simp only [Function.comp_apply]
  split <;> rfl

@[simp] theorem names_remove (s : InputConnectionPool) (rooms : RoomInterface) (i : ℕ) :
    (({ s with roomInterface := rooms } : InputConnectionPool).remove i).names =
      s.names.filter fun x => x.2 ≠ i := by
  simp [names, remove, List.filter_map, Function.comp_def]

/-- No handle is used twice. -/
structure Handles (s : InputConnectionPool) : Prop where
  nodup : (s.names.map Prod.fst).Nodup
  lt : ∀ x ∈ s.names, x.1 < s.accepted

theorem Handles.eq {s : InputConnectionPool} (hs : s.Handles) {c c' : Protocol}
    (hc : c ∈ s.inputCollection) (hc' : c' ∈ s.inputCollection) (h : c.handle = c'.handle) :
    c = c' := by
  have hnodup : (s.inputCollection.map (·.handle)).Nodup := by
    simpa [names, Function.comp_def] using hs.nodup
  exact List.inj_on_of_nodup_map hnodup hc hc' h

theorem Handles.lt_accepted {s : InputConnectionPool} (hs : s.Handles) {c : Protocol}
    (hc : c ∈ s.inputCollection) : c.handle < s.accepted :=
  hs.lt _ (mem_names_of_mem hc)

theorem Handles.insert {s : InputConnectionPool} (hs : s.Handles) : s.insert.2.Handles := by
  refine ⟨?_, fun x hx => ?_⟩
  · rw [names_insert, List.map_append]
    refine hs.nodup.append (List.nodup_singleton _) fun h hh hnew => ?_
    obtain ⟨x, hx, rfl⟩ := List.mem_map.1 hh
    have hlt := hs.lt x hx
    have heq : x.1 = s.accepted := List.mem_singleton.1 hnew
    omega
  · rw [names_insert] at hx
    rcases List.mem_append.1 hx with hx | hx
    · exact (hs.lt x hx).trans (Nat.lt_succ_self _)
    · rw [List.mem_singleton.1 hx]
      exact Nat.lt_succ_self _

theorem Handles.assign {s : InputConnectionPool} (hs : s.Handles) (h : ℕ) (rp : RequestProcesser)
    (rooms : RoomInterface) :
    ({ s.assign h rp with roomInterface := rooms } : InputConnectionPool).Handles := by
  refine ⟨by simpa using hs.nodup, fun x hx => ?_⟩
  rw [names_assign] at hx
  exact hs.lt x hx

theorem Handles.remove {s : InputConnectionPool} (hs : s.Handles) (rooms : RoomInterface) (i : ℕ) :
    (({ s with roomInterface := rooms } : InputConnectionPool).remove i).Handles := by
  refine ⟨?_, fun x hx => ?_⟩
  · rw [names_remove]
    exact (List.filter_sublist.map Prod.fst).nodup hs.nodup
  · rw [names_remove] at hx
    exact hs.lt x (List.mem_of_mem_filter hx)

theorem handles_step {s s' : InputConnectionPool} {e : Event} {o : Option Response}
    (hs : s.Handles) (hstep : pool.step s e = some (s', o)) : s'.Handles := by
  rcases step_cases hstep with
    ⟨-, -, rfl⟩ | ⟨h, _, _, _, rp, rooms, -, -, -, -, -, rfl⟩ | ⟨_, c, -, -, -, rfl⟩
  · exact hs.insert
  · exact hs.assign h rp rooms
  · exact hs.remove _ c.id

theorem handles_init : pool.init.Handles :=
  ⟨List.nodup_nil, by simp [pool, names]⟩

theorem handles_of_run {tr : List (Event × Option Response)} {s : InputConnectionPool}
    (h : pool.Run tr s) : s.Handles :=
  h.invariant handles_init fun _ _ _ _ hs hstep => handles_step hs hstep

/-! ## The lobby behind the pool -/

/-- Every request processer serves the id of its connection. -/
def Identified (s : InputConnectionPool) : Prop :=
  ∀ c ∈ s.inputCollection, c.requestProcesser.playerId = c.id

theorem identified_init : pool.init.Identified := by
  simp [pool, Identified]

theorem identified_step {s s' : InputConnectionPool} {e : Event} {o : Option Response}
    (hs : s.Identified) (hhandles : s.Handles) (hstep : pool.step s e = some (s', o)) :
    s'.Identified := by
  rcases step_cases hstep with
    ⟨-, -, rfl⟩ | ⟨h, _, c, _, rp, rooms, -, -, hfind, -, ho, rfl⟩ | ⟨_, c, -, -, -, rfl⟩
  · intro c hc
    rcases List.mem_append.1 hc with hc | hc
    · exact hs c hc
    · rw [List.mem_singleton.1 hc]
      rfl
  · intro c' hc'
    obtain ⟨c₀, hc₀, rfl⟩ := List.mem_map.1 hc'
    obtain ⟨hc, rfl⟩ := find_spec hfind
    split
    · rw [hhandles.eq hc₀ hc ‹_›]
      exact ho.playerId_eq.trans (hs c hc)
    · exact hs c₀ hc₀
  · exact fun c hc => hs c (List.mem_of_mem_filter hc)

theorem identified_of_run {tr : List (Event × Option Response)} {s : InputConnectionPool}
    (h : pool.Run tr s) : s.Identified := by
  have hboth : s.Handles ∧ s.Identified := by
    refine h.invariant (I := fun s => s.Handles ∧ s.Identified) ⟨handles_init, identified_init⟩
      fun s e s' o hs hstep => ?_
    exact ⟨handles_step hs.1 hstep, identified_step hs.2 hs.1 hstep⟩
  exact hboth.2

/-- To the rooms, an event of the pool is nothing or an event of the client with the id of
the connection. -/
theorem lobby_step {s s' : InputConnectionPool} {e : Event} {o : Option Response} {l : Lobby}
    (hs : s.Identified) (hrooms : l.rooms = s.roomInterface)
    (hstep : pool.step s e = some (s', o)) : (s'.roomInterface = s.roomInterface ∧ o = none) ∨
      ∃ e' l', lobby.step l e' = some (l', o) ∧ l'.rooms = s'.roomInterface := by
  rcases step_cases hstep with
    ⟨-, rfl, rfl⟩ | ⟨h, request, c, resp, rp, rooms, -, rfl, hfind, hprocess, -, rfl⟩ |
    ⟨h, c, -, rfl, hfind, rfl⟩
  · exact Or.inl ⟨rfl, rfl⟩
  · have hid : c.requestProcesser.playerId = (l.processer c.id).playerId :=
      hs c (find_spec hfind).1
    obtain ⟨rp₁, h₁⟩ := process_of_playerId hid hprocess
    rw [← hrooms] at h₁
    exact Or.inr ⟨.request c.id request, ⟨rooms, Function.update l.nickname c.id rp₁.nickname⟩,
      by simp [lobby, Lobby.step, h₁], rfl⟩
  · refine Or.inr ⟨.disconnect c.id, _, rfl, ?_⟩
    have hid := hs c (find_spec hfind).1
    simp only [hrooms, RequestProcesser.removeFromRoom, Lobby.playerId_processer, ← hid]
    rfl

/-- The rooms of a pool are those of a lobby whose clients got the same answers. -/
theorem lobby_of_run {tr : List (Event × Option Response)} {s : InputConnectionPool}
    (h : pool.Run tr s) : ∃ ltr l, lobby.Run ltr l ∧ l.rooms = s.roomInterface ∧
      ltr.filterMap Prod.snd = tr.filterMap Prod.snd := by
  induction h with
  | nil => exact ⟨[], _, .nil, rfl, rfl⟩
  | snoc hrun hstep ih =>
    obtain ⟨ltr, l, hlobby, hrooms, hanswers⟩ := ih
    rcases lobby_step (identified_of_run hrun) hrooms hstep with
      ⟨hsame, rfl⟩ | ⟨e', l', hl', hrooms'⟩
    · exact ⟨ltr, l, hlobby, hrooms.trans hsame.symm, by simp [hanswers]⟩
    · refine ⟨_, l', hlobby.snoc hl', hrooms', ?_⟩
      rw [List.filterMap_append, List.filterMap_append, hanswers]
      rfl

end InputConnectionPool

end SpaceBattle
