import SpaceBattle.Lib.Simulation
import SpaceBattle.MemoryConnection
import SpaceBattle.SegmentedEngine

/-!
# The server in memory

`ServerMemory` is the engine with its connections in memory, their `m_data` and their buffers in
one heap. `m_data` is allocated with its connection, and freed when the connection is destroyed.
Every handler looks at its connection first (`touch`). What is read, written or freed outside of
a live block is recorded (`violated`), and nothing is known of the server from there on; what the
decoders look at behind their buffers is `beyond`, as in the engine.

`values` is the engine in segments that a state stands for, a violation the fault `destroyed`.
No part, no handler of a live connection and no `remove` is ever a violation, but every handler
of a connection that is gone is (`violated_iff`), and what the handlers do is what the engine
does, under every interleaving (`engine_run_iff`).
-/

namespace SpaceBattle

open Cpp AsyncWrite Asio

/-- The engine with its heap. -/
structure ServerMemory where
  heap : Heap UInt8
  connections : InputConnectionPool
  connection : ℕ → MemoryConnection
  /-- The operations whose handlers are still to run on connections that are gone, by handle. -/
  aborted : List (ℕ × Operation)
  fault : Option Fault
  /-- Something was done outside of a live block. -/
  violated : Bool

namespace ServerMemory

/-- The server with another heap and another connection. -/
def set (s : ServerMemory) (heap : Heap UInt8) (handle : ℕ) (c : MemoryConnection) :
    ServerMemory :=
  { s with heap := heap, connection := Function.update s.connection handle c }

def violate (s : ServerMemory) : ServerMemory :=
  { s with violated := true }

/-- A handler of the connection runs. It looks for a callback, a member next to `m_data`. -/
def touch (s : ServerMemory) (handle : ℕ) (run : Option (ServerMemory × Option Handled)) :
    Option (ServerMemory × Option Handled) :=
  if s.heap.Live (s.connection handle).data then run else some (s.violate, none)

/-- The connection handed to `on_accept`, `garbage` in its `m_data`, is inserted and starts to
read. -/
def onAccept (s : ServerMemory) (garbage : ℕ → UInt8) : ServerMemory :=
  let (data, heap) := s.heap.alloc (newChars garbage 25)
  { s.set heap s.connections.accepted (.new data) with connections := s.connections.insert.2 }

/-- The handler of `read`, `data` the bytes at `m_data`. -/
def onHeader (s : ServerMemory) (handle : ℕ) (data beyond : List UInt8) (garbage : ℕ → UInt8) :
    ServerMemory :=
  match HeaderRequest.ofBuffer (data ++ beyond) 25 with
  | .error e => { s with fault := some (.thrown e) }
  | .ok requestHeader =>
    let (heap, c) := (s.connection handle).readBody s.heap garbage requestHeader
    s.set heap handle c

/-- The handler of `read_body`, `body` the bytes at `m_body`. -/
def onBody (s : ServerMemory) (p : Protocol) (body beyond : List UInt8) (garbage : ℕ → UInt8) :
    ServerMemory × Option Response :=
  let c := s.connection p.handle
  let request : Request := ⟨c.currentHeaderRequest,
    Body.ofBuffer (body ++ beyond) c.currentHeaderRequest.bufferSize.toNat⟩
  match p.requestProcesser.process s.connections.roomInterface request with
  | .error fault => ({ s with fault := some fault }, none)
  | .ok (response, rp, rooms) =>
    match c.write s.heap garbage response with
    | none => (s.violate, none)
    | some (heap, c) =>
      ({ s.set heap p.handle c.read with
          connections := { s.connections.assign p.handle rp with roomInterface := rooms } },
        some response)

/-- The handler of the outstanding read, whose buffer is full. -/
def onRead (s : ServerMemory) (p : Protocol) (beyond : List UInt8) (garbage : ℕ → UInt8) :
    ServerMemory × Option Handled :=
  let c := s.connection p.handle
  match c.destination with
  | .data =>
    match c.loadHeader s.heap with
    | none => (s.violate, none)
    | some data => (s.onHeader p.handle data beyond garbage, some (.header data))
  | .body _ =>
    match c.loadBody s.heap with
    | none => (s.violate, none)
    | some body =>
      let (s, answer) := s.onBody p body beyond garbage
      (s, some (.body body answer))

/-- A part for the outstanding read. -/
def onReceived (s : ServerMemory) (p : Protocol) (part beyond : List UInt8)
    (garbage : ℕ → UInt8) : Option (ServerMemory × Option Handled) :=
  let c := s.connection p.handle
  match c.readOp.step ⟨none, part.length⟩ with
  | none => none
  | some (readOp, call) =>
    match c.storePart s.heap part with
    | none => some (s.violate, none)
    | some heap =>
      match call with
      | none => some (s.set heap p.handle { c with readOp := readOp }, none)
      | some _ => some ((s.set heap p.handle c).onRead p beyond garbage)

/-- `Protocol::on_read_fail`. `remove` destroys every connection with the id. -/
def onReadFail (s : ServerMemory) (p : Protocol) (shutdown closed : Option String) :
    ServerMemory :=
  let rooms := p.requestProcesser.removeFromRoom s.connections.roomInterface
  let left : InputConnectionPool := { s.connections with roomInterface := rooms }
  match Engine.close shutdown closed with
  | .error e => { s with connections := left, fault := some (.thrown e) }
  | .ok () =>
    let gone := s.connections.inputCollection.filter fun q => q.id = p.id
    match s.heap.freeAll (gone.map fun q => (s.connection q.handle).data) with
    | none => s.violate
    | some heap => { s with
        heap := heap
        connections := left.remove p.id
        aborted := s.aborted ++
          Engine.outstanding s.connections (fun h => (s.connection h).writes.length) p }

/-- A part of `n` bytes of the `k`-th outstanding write. -/
def onWrote (s : ServerMemory) (handle k n : ℕ) : Option (ServerMemory × Option Handled) :=
  match (s.connection handle).progress s.heap k n with
  | none => none
  | some none => some (s.violate, none)
  | some (some c) => some (s.set s.heap handle c, none)

/-- One event, and what a handler of a read was given. `members` is what the `m_data` of the
connections hold when they are accepted. -/
def step (members : ℕ → ℕ → UInt8) (s : ServerMemory) (e : Engine.Event) :
    Option (ServerMemory × Option Handled) :=
  if s.fault.isSome || s.violated then none
  else
    match e with
    | .accept => some (s.onAccept (members s.connections.accepted), none)
    | .received handle part beyond garbage =>
      match s.connections.find handle with
      | none => none
      | some p => s.touch handle (s.onReceived p part beyond garbage)
    | .failed handle shutdown closed =>
      match s.connections.find handle with
      | none => none
      | some p => s.touch handle (some (s.onReadFail p shutdown closed, none))
    | .wrote handle k n =>
      match s.connections.find handle with
      | none => none
      | some _ => s.touch handle (s.onWrote handle k n)
    | .aborted handle operation =>
      -- on a connection that is there, a completion is one of the others
      if (handle, operation) ∈ s.aborted then s.touch handle none else none

end ServerMemory

open ServerMemory

/-- The server in memory, from no connections. -/
def serverMemory (members : ℕ → ℕ → UInt8) :
    Machine ServerMemory Engine.Event (Option Handled) :=
  ⟨⟨Heap.empty, pool.init, fun _ => .new 0, [], none, false⟩, ServerMemory.step members⟩

/-! ## What it stands for -/

namespace ServerMemory

open MemoryConnection

/-- The engine in segments that the memory stands for. -/
def values (s : ServerMemory) : SegmentedEngine :=
  ⟨⟨s.connections, fun h => (s.connection h).session s.heap, s.aborted,
      if s.violated then some .destroyed else s.fault⟩,
    fun h => (s.connection h).inbox s.heap⟩

/-- Every live connection is sound, `m_data` and the buffer of a read belong to no other
connection, and what is to run on a connection that is gone finds it freed. -/
structure Sound (s : ServerMemory) : Prop where
  handles : s.connections.Handles
  unused : ∀ h, s.connections.accepted ≤ h → s.connection h = .new 0
  placed : ∀ h < s.connections.accepted, ∀ a, (s.connection h).Refers a →
    a < s.heap.blocks.length
  separate : ∀ h < s.connections.accepted, ∀ g < s.connections.accepted, g ≠ h →
    ∀ a, (s.connection h).Owns a → ¬(s.connection g).Refers a
  connection : ∀ p ∈ s.connections.inputCollection, (s.connection p.handle).Sound s.heap
  aborted : ∀ x ∈ s.aborted, x.1 < s.connections.accepted ∧
    ¬s.heap.Live (s.connection x.1).data

/-- Heaps in which the buffers of the connections hold the same stand for the same. -/
theorem Sound.same {s : ServerMemory} (hs : s.Sound) {heap : Heap UInt8} {h : ℕ}
    (hsame : h < s.connections.accepted → ∀ a, (s.connection h).Refers a →
      heap.contents a = s.heap.contents a) :
    (s.connection h).session heap = (s.connection h).session s.heap ∧
      (s.connection h).inbox heap = (s.connection h).inbox s.heap := by
  rcases lt_or_ge h s.connections.accepted with hlt | hle
  · exact same_of_contents (hsame hlt)
  · rw [hs.unused h hle]
    exact ⟨rfl, rfl⟩

/-- A connection that is set, in a heap where the buffers of the others hold the same. -/
theorem Sound.values_update {s : ServerMemory} (hs : s.Sound) {heap : Heap UInt8} {h : ℕ}
    {c : MemoryConnection} (hsame : ∀ g < s.connections.accepted, g ≠ h → ∀ a,
      (s.connection g).Refers a → heap.contents a = s.heap.contents a) :
    (s.set heap h c).values = ⟨s.values.engine.setSession h (c.session heap),
      Function.update s.values.inbox h (c.inbox heap)⟩ := by
  have hother {g : ℕ} (hne : g ≠ h) :
      (s.connection g).session heap = (s.connection g).session s.heap ∧
        (s.connection g).inbox heap = (s.connection g).inbox s.heap :=
    hs.same fun hg => hsame g hg hne
  have hsession : (fun g => (Function.update s.connection h c g).session heap) =
      Function.update (fun g => (s.connection g).session s.heap) h (c.session heap) := by
    funext g
    rcases eq_or_ne g h with rfl | hne
    · simp
    · simpa [Function.update_of_ne hne] using (hother hne).1
  have hinbox : (fun g => (Function.update s.connection h c g).inbox heap) =
      Function.update (fun g => (s.connection g).inbox s.heap) h (c.inbox heap) := by
    funext g
    rcases eq_or_ne g h with rfl | hne
    · simp
    · simpa [Function.update_of_ne hne] using (hother hne).2
  rw [values]
  simp only [ServerMemory.set, hsession, hinbox]
  rfl

/-- The blocks of a connection that is set are there, and so are those of the others. -/
theorem placed_update {f : ℕ → MemoryConnection} {n h size : ℕ} {c : MemoryConnection}
    (hothers : ∀ g < n, g ≠ h → ∀ a, (f g).Refers a → a < size)
    (hc : ∀ a, c.Refers a → a < size) :
    ∀ g < n, ∀ a, (Function.update f h c g).Refers a → a < size :=
  (Function.forall_update_iff f fun g c => g < n → ∀ a, c.Refers a → a < size).2
    ⟨fun _ => hc, fun g hne hg => hothers g hg hne⟩

/-- A connection that is set owns no block of the others, nor they one of its own. -/
theorem separate_update {f : ℕ → MemoryConnection} {n h : ℕ} {c : MemoryConnection}
    (hothers : ∀ g < n, g ≠ h → ∀ g' < n, g' ≠ h → g' ≠ g → ∀ a, (f g).Owns a →
      ¬(f g').Refers a)
    (howns : ∀ g < n, g ≠ h → ∀ a, c.Owns a → ¬(f g).Refers a)
    (hrefers : ∀ g < n, g ≠ h → ∀ a, (f g).Owns a → ¬c.Refers a) :
    ∀ g < n, ∀ g' < n, g' ≠ g → ∀ a, (Function.update f h c g).Owns a →
      ¬(Function.update f h c g').Refers a := by
  intro g hg g' hg' hne a
  rcases eq_or_ne g h with rfl | hgh
  · rw [Function.update_self, Function.update_of_ne hne]
    exact howns g' hg' hne a
  rw [Function.update_of_ne hgh]
  rcases eq_or_ne g' h with rfl | hgh'
  · rw [Function.update_self]
    exact hrefers g hg hgh a
  · rw [Function.update_of_ne hgh']
    exact hothers g hg hgh g' hg' hgh' hne a

/-- A handler of a live connection finds it. -/
theorem Sound.touch {s : ServerMemory} (hs : s.Sound) {p : Protocol} {h : ℕ}
    (hfind : s.connections.find h = some p) (run : Option (ServerMemory × Option Handled)) :
    s.touch h run = run := by
  obtain ⟨hp, rfl⟩ := InputConnectionPool.find_spec hfind
  exact if_pos (hs.connection p hp).data.live

/-- What is to run on a connection that is gone still finds it freed. -/
theorem Sound.gone {s : ServerMemory} (hs : s.Sound) {x : ℕ × Operation} (hx : x ∈ s.aborted)
    {heap : Heap UInt8} {P : ℕ → Prop} (hframe : Heap.Frame s.heap heap P) :
    ¬heap.Live (s.connection x.1).data :=
  have hplaced := hs.placed _ (hs.aborted x hx).1 _ (Or.inl (Or.inl rfl))
  hframe.freed _ hplaced (hs.aborted x hx).2

/-- The pool has changed, but for the connections it holds. -/
theorem Sound.withConnections {s : ServerMemory} (hs : s.Sound) {connections : InputConnectionPool}
    (hhandles : connections.Handles) (haccepted : connections.accepted = s.connections.accepted)
    (hsub : ∀ p ∈ connections.inputCollection, ∃ q ∈ s.connections.inputCollection,
      q.handle = p.handle) : ({ s with connections := connections } : ServerMemory).Sound where
  handles := hhandles
  unused h hle := hs.unused h (haccepted ▸ hle)
  placed h hlt := hs.placed h (haccepted ▸ hlt)
  separate h hlt g hg := hs.separate h (haccepted ▸ hlt) g (haccepted ▸ hg)
  connection p hp := by
    obtain ⟨q, hq, hhandle⟩ := hsub p hp
    exact hhandle ▸ hs.connection q hq
  aborted x hx := by
    rw [haccepted]
    exact hs.aborted x hx

section

variable {s : ServerMemory} (hs : s.Sound) {h : ℕ} {heap : Heap UInt8} {c : MemoryConnection}
  (hlt : h < s.connections.accepted) (hext : Extends (s.connection h) s.heap c heap)

include hs hlt hext

/-- An operation of one connection frames the blocks of the others. -/
theorem Sound.frame_others {g : ℕ} (hg : g < s.connections.accepted) (hne : g ≠ h) :
    Heap.Frame s.heap heap (s.connection g).Refers :=
  hext.frame _ fun a ha => hs.separate h hlt g hg hne a ha

/-- An operation of one connection leaves the others sound. -/
theorem Sound.set (hc : c.Sound heap) : (s.set heap h c).Sound := by
  have hall : Heap.Frame s.heap heap fun _ => False := hext.frame _ fun _ _ => id
  refine ⟨hs.handles, fun g hle => ?_, ?_, ?_, fun p hp => ?_, fun x hx => ?_⟩
  · simpa [ServerMemory.set, Function.update_of_ne (hlt.trans_le hle).ne'] using hs.unused g hle
  · exact placed_update (fun g hg _ a ha => (hs.placed g hg a ha).trans_le hall.blocks)
      fun a ha => hc.lt_of_refers ha
  · refine separate_update (fun g hg _ g' hg' _ => hs.separate g hg g' hg')
      (fun g hg hne a ha hrefers => ?_) fun g hg hne a ha hrefers => ?_
    · rcases hext.owns a ha with ha | hle
      · exact hs.separate h hlt g hg hne a ha hrefers
      · exact (hs.placed g hg a hrefers).not_ge hle
    · rcases hext.refers a hrefers with hrefers | hle
      · exact hs.separate g hg h hlt hne.symm a ha hrefers
      · exact (hs.placed g hg a (Or.inl ha)).not_ge hle
  · have hp : p ∈ s.connections.inputCollection := hp
    rcases eq_or_ne p.handle h with hph | hph
    · simpa [ServerMemory.set, hph] using hc
    · simp only [ServerMemory.set, Function.update_of_ne hph]
      exact (hs.connection p hp).frame (hs.frame_others hlt hext (hs.handles.lt_accepted hp) hph)
  · have hgone := hs.gone hx hall
    refine ⟨(hs.aborted x hx).1, ?_⟩
    rcases eq_or_ne x.1 h with hxh | hxh
    · simpa [ServerMemory.set, hxh, hext.data] using hxh ▸ hgone
    · simpa [ServerMemory.set, Function.update_of_ne hxh] using hgone

/-- An operation of one connection leaves what the others stand for. -/
theorem Sound.values_set : (s.set heap h c).values =
    ⟨s.values.engine.setSession h (c.session heap),
      Function.update s.values.inbox h (c.inbox heap)⟩ :=
  hs.values_update fun g hg hne a ha =>
    (hs.frame_others hlt hext hg hne).contents ha (hs.placed g hg a ha)

end

theorem setSession_values (s : ServerMemory) (h : ℕ) :
    s.values.engine.setSession h ((s.connection h).session s.heap) = s.values.engine := by
  simp only [Engine.setSession, values, Function.update_eq_self]

/-- The engine runs if there has been neither a fault nor a violation. -/
theorem fault_values_eq_none_iff (s : ServerMemory) :
    s.values.engine.fault = none ↔ s.fault = none ∧ s.violated = false := by
  cases hviolated : s.violated <;> simp [values, hviolated]

/-! ## Steps -/

/-- What a step does to the memory is sound, and is to the values what the other result is. -/
def Simulates (r : Option (ServerMemory × Option Handled))
    (r' : Option (SegmentedEngine × Option Handled)) : Prop :=
  r' = r.map (fun x => (x.1.values, x.2)) ∧ ∀ s o, r = some (s, o) → s.Sound

theorem simulates_none : Simulates none none :=
  ⟨rfl, fun s o h => by cases h⟩

theorem simulates_some {s : ServerMemory} {t : SegmentedEngine} (hs : s.Sound) (ht : s.values = t)
    (o : Option Handled) : Simulates (some (s, o)) (some (t, o)) := by
  refine ⟨by rw [Option.map_some, ht], fun s' o' h => ?_⟩
  obtain ⟨rfl, -⟩ := Prod.mk.inj (Option.some.inj h)
  exact hs

/-- The engine in segments after the handler of a read : the next read, unless it threw. -/
def handledBy (s : SegmentedEngine) (handle : ℕ) (engine : Engine) : SegmentedEngine :=
  ⟨engine, if engine.fault.isSome then s.inbox
    else Function.update s.inbox handle (Inbox.new (engine.session handle).input.wanted)⟩

theorem handledBy_of_running (s : SegmentedEngine) (h : ℕ) {engine : Engine}
    (hfault : engine.fault = none) : handledBy s h engine =
      ⟨engine, Function.update s.inbox h (Inbox.new (engine.session h).input.wanted)⟩ := by
  simp [handledBy, hfault]

section

variable {s : ServerMemory} (hs : s.Sound)

include hs

theorem Sound.violate : s.violate.Sound :=
  ⟨hs.handles, hs.unused, hs.placed, hs.separate, hs.connection, hs.aborted⟩

/-- A new connection is sound, and has no block that another has. -/
theorem Sound.onAccept (garbage : ℕ → UInt8) : (s.onAccept garbage).Sound ∧
    (s.onAccept garbage).values = ⟨s.values.engine.onAccept,
      Function.update s.values.inbox s.connections.accepted (Inbox.new 25)⟩ := by
  have hframe := Heap.frame_alloc s.heap (newChars garbage 25)
  have hdata := Heap.holds_alloc s.heap (newChars garbage 25)
  rw [length_newChars] at hdata
  have hold {g : ℕ} (hg : g < s.connections.accepted + 1) (hne : g ≠ s.connections.accepted) :
      g < s.connections.accepted := by omega
  refine ⟨⟨hs.handles.insert, fun g hle => ?_, ?_, ?_, fun p hp => ?_, fun x hx => ?_⟩, ?_⟩
  · have hlater : g ≠ s.connections.accepted := (Nat.lt_of_succ_le hle).ne'
    simpa [ServerMemory.onAccept, ServerMemory.set, Function.update_of_ne hlater] using
      hs.unused g (Nat.le_of_succ_le hle)
  · refine placed_update (fun g hg hne a ha => ?_) fun a ha => ?_
    · exact (hs.placed g (hold hg hne) a ha).trans_le (hframe fun _ => True).blocks
    · rw [refers_new ha]
      exact hdata.live.lt
  · refine separate_update (fun g hg hne g' hg' hne' =>
      hs.separate g (hold hg hne) g' (hold hg' hne')) (fun g hg hne a ha hrefers => ?_)
      fun g hg hne a ha hrefers => ?_
    · rw [owns_new ha] at hrefers
      exact (hs.placed g (hold hg hne) _ hrefers).false
    · rw [refers_new hrefers] at ha
      exact (hs.placed g (hold hg hne) _ (Or.inl ha)).false
  · simp only [ServerMemory.onAccept, ServerMemory.set]
    rcases List.mem_append.1 hp with hp | hp
    · rw [Function.update_of_ne (hs.handles.lt_accepted hp).ne]
      exact (hs.connection p hp).frame (hframe _)
    · rw [List.mem_singleton.1 hp]
      simpa [Protocol.new] using sound_new hdata
  · have hlt := (hs.aborted x hx).1
    refine ⟨Nat.lt_succ_of_lt hlt, ?_⟩
    simp only [ServerMemory.onAccept, ServerMemory.set, Function.update_of_ne hlt.ne]
    exact hs.gone hx (hframe fun _ => True)
  · have hvalues := hs.values_update (h := s.connections.accepted)
      (c := .new (s.heap.alloc (newChars garbage 25)).1) fun g hg _ a ha =>
        (hframe _).contents ha (hs.placed g hg a ha)
    change (⟨{ (s.set (s.heap.alloc (newChars garbage 25)).2 s.connections.accepted
      (.new (s.heap.alloc (newChars garbage 25)).1)).values.engine with
      connections := s.connections.insert.2 },
      (s.set (s.heap.alloc (newChars garbage 25)).2 s.connections.accepted
        (.new (s.heap.alloc (newChars garbage 25)).1)).values.inbox⟩ : SegmentedEngine) = _
    rw [hvalues]
    rfl

end

section

variable {s : ServerMemory} (hs : s.Sound) (hrunning : s.values.engine.fault = none) {p : Protocol}
  (hp : p ∈ s.connections.inputCollection)

include hs hrunning

/-- A fault of a handler is the engine's. -/
theorem Sound.withFault (h : ℕ) (fault : Fault) :
    ({ s with fault := some fault } : ServerMemory).Sound ∧
    ({ s with fault := some fault } : ServerMemory).values =
      handledBy s.values h { s.values.engine with fault := some fault } := by
  have hsafe := ((fault_values_eq_none_iff s).1 hrunning).2
  refine ⟨⟨hs.handles, hs.unused, hs.placed, hs.separate, hs.connection, hs.aborted⟩, ?_⟩
  simp [values, handledBy, hsafe]

include hp

theorem Sound.onHeader (data beyond : List UInt8) (garbage : ℕ → UInt8) :
    (s.onHeader p.handle data beyond garbage).Sound ∧
      (s.onHeader p.handle data beyond garbage).values =
        handledBy s.values p.handle (s.values.engine.onHeader p.handle (data ++ beyond)) := by
  unfold ServerMemory.onHeader Engine.onHeader InputConnection.onHeader
  cases hheader : HeaderRequest.ofBuffer (data ++ beyond) 25 with
  | error e => exact hs.withFault hrunning p.handle (.thrown e)
  | ok requestHeader =>
    obtain ⟨⟨heap, c⟩, hread⟩ :
      ∃ r, (s.connection p.handle).readBody s.heap garbage requestHeader = r := ⟨_, rfl⟩
    have hlt := hs.handles.lt_accepted hp
    obtain ⟨hc, hext, hsession, hinbox⟩ := (hs.connection p hp).readBody hread
    have hsound := hs.set hlt hext hc
    have hvalues := hs.values_set hlt hext
    refine ⟨by simpa [hread] using hsound, ?_⟩
    simp only [hread, hvalues, hsession, hinbox, ok_bind]
    rw [handledBy_of_running]
    · rw [Engine.setSession_session_self]
      rfl
    · exact hrunning

theorem Sound.onBody (body beyond : List UInt8) (garbage : ℕ → UInt8) :
    (s.onBody p body beyond garbage).1.Sound ∧
      (s.onBody p body beyond garbage).1.values = handledBy s.values p.handle
        (s.values.engine.onBody p (body ++ beyond) garbage).1 ∧
      (s.onBody p body beyond garbage).2 =
        (s.values.engine.onBody p (body ++ beyond) garbage).2 := by
  have hrequest : (s.values.engine.session p.handle).input.request (body ++ beyond) =
      ⟨(s.connection p.handle).currentHeaderRequest, Body.ofBuffer (body ++ beyond)
        (s.connection p.handle).currentHeaderRequest.bufferSize.toNat⟩ := rfl
  have hrooms : s.values.engine.connections.roomInterface = s.connections.roomInterface := rfl
  unfold ServerMemory.onBody Engine.onBody
  dsimp only
  rw [hrequest, hrooms]
  cases p.requestProcesser.process s.connections.roomInterface
      ⟨(s.connection p.handle).currentHeaderRequest, Body.ofBuffer (body ++ beyond)
        (s.connection p.handle).currentHeaderRequest.bufferSize.toNat⟩ with
  | error fault =>
    obtain ⟨hsound, hvalues⟩ := hs.withFault hrunning p.handle fault
    exact ⟨hsound, hvalues, rfl⟩
  | ok result =>
    obtain ⟨response, rp, rooms⟩ := result
    have hlt := hs.handles.lt_accepted hp
    obtain ⟨heap, c, hwrite, hc, hext, hinput, hsocket⟩ :=
      (hs.connection p hp).write garbage response
    obtain ⟨hread, hext⟩ := hc.read hext
    have hsound := hs.set hlt hext hread
    have hvalues := hs.values_set hlt hext
    simp only [hwrite, and_true]
    constructor
    · refine hsound.withConnections (hs.handles.assign p.handle rp rooms) rfl fun q hq => ?_
      obtain ⟨q', hq', rfl⟩ := List.mem_map.1 hq
      exact ⟨q', hq', by split <;> rfl⟩
    rw [handledBy_of_running]
    · change (⟨{ (s.set heap p.handle c.read).values.engine with
        connections := { s.connections.assign p.handle rp with roomInterface := rooms } },
        (s.set heap p.handle c.read).values.inbox⟩ : SegmentedEngine) = _
      rw [hvalues, session_read, inbox_read, hinput, hsocket, Engine.setSession_session_self]
      rfl
    · exact hrunning

omit hs hrunning hp in
theorem reading_values (h : ℕ) : (s.values.engine.session h).input.reading =
    match (s.connection h).destination with
    | .data => .header
    | .body _ => .body :=
  rfl

/-- The handler of a read, given the buffer, does what the engine does. -/
theorem Sound.onRead (hfind : s.connections.find p.handle = some p) (beyond : List UInt8)
    (garbage : ℕ → UInt8) : ∃ s' engine answer,
      s.onRead p beyond garbage = (s', some (s.values.handled p.handle
        (s.heap.contents (s.connection p.handle).address) answer)) ∧ s'.Sound ∧
      Engine.step s.values.engine (.received p.handle
        (s.heap.contents (s.connection p.handle).address) beyond garbage) =
          some (engine, answer) ∧
      s'.values = handledBy s.values p.handle engine := by
  have hc := hs.connection p hp
  rw [Engine.step_received (s := s.values.engine) hrunning hfind hc.holds_address.length]
  cases hdest : (s.connection p.handle).destination with
  | data =>
    have haddress : (s.connection p.handle).address = (s.connection p.handle).data := by
      rw [address, hdest]
    have hreading : (s.values.engine.session p.handle).input.reading = .header := by
      rw [reading_values, hdest]
    have hload : (s.connection p.handle).loadHeader s.heap =
        some (s.heap.contents (s.connection p.handle).data) := hc.data.load_all
    obtain ⟨hsound, hvalues⟩ := hs.onHeader hrunning hp
      (s.heap.contents (s.connection p.handle).data) beyond garbage
    refine ⟨_, _, none, ?_, hsound, ?_, hvalues⟩
    · simp only [ServerMemory.onRead, hdest, hload, SegmentedEngine.handled, hreading, haddress]
    · simp only [hreading, haddress]
  | body a =>
    obtain ⟨hbody, hholds⟩ := hc.body a hdest
    have haddress : (s.connection p.handle).address = a := by rw [address, hdest]
    have hreading : (s.values.engine.session p.handle).input.reading = .body := by
      rw [reading_values, hdest]
    have hload : (s.connection p.handle).loadBody s.heap = some (s.heap.contents a) := by
      rw [loadBody, hbody, Option.bind_some, hholds.load_all]
    obtain ⟨hsound, hvalues, hanswer⟩ := hs.onBody hrunning hp (s.heap.contents a) beyond garbage
    refine ⟨_, _, (s.values.engine.onBody p (s.heap.contents a ++ beyond) garbage).2, ?_, hsound,
      ?_, hvalues⟩
    · simp only [ServerMemory.onRead, hdest, hload, SegmentedEngine.handled, hreading, haddress,
        hanswer]
    · simp only [hreading, haddress]

omit hrunning in
/-- A part for a read is stored, and until it is counted the memory stands for what it stood
for. -/
theorem Sound.storePart {part : List UInt8} {readOp : Composed}
    {call : Option (Option String × ℕ)}
    (hstep : (s.connection p.handle).readOp.step ⟨none, part.length⟩ = some (readOp, call)) :
    ∃ heap, (s.connection p.handle).storePart s.heap part = some heap ∧
      (s.connection p.handle).Sound heap ∧
      Extends (s.connection p.handle) s.heap (s.connection p.handle) heap ∧
      (s.connection p.handle).session heap = (s.connection p.handle).session s.heap ∧
      (heap.contents (s.connection p.handle).address).take
        ((s.connection p.handle).readOp.op.totalTransferred + part.length) =
          (s.values.inbox p.handle).stored ++ part ∧
      (s.set heap p.handle (s.connection p.handle)).Sound ∧
      (s.set heap p.handle (s.connection p.handle)).values = s.values := by
  have hc := hs.connection p hp
  have hlt := hs.handles.lt_accepted hp
  have hle : (s.connection p.handle).readOp.op.totalTransferred + part.length ≤
      (s.connection p.handle).input.wanted := by
    rcases Composed.Filling.step hc.filling hstep with ⟨-, -, hfilling⟩ | ⟨-, hfull⟩
    · exact hfilling.op_eq.2
    · exact hfull.le
  obtain ⟨heap, hpart, hcs, hext, hsession, hinbox, hcontents⟩ := hc.storePart hle
  have hvalues := hs.values_set hlt hext
  refine ⟨heap, hpart, hcs, hext, hsession, hcontents, hs.set hlt hext hcs, ?_⟩
  rw [hvalues, hsession, hinbox, setSession_values]
  simp only [values, Function.update_eq_self]

/-- A part for a read does what it does to the values. -/
theorem Sound.onReceived (hfind : s.connections.find p.handle = some p)
    (part beyond : List UInt8) (garbage : ℕ → UInt8) :
    Simulates (s.onReceived p part beyond garbage)
      (SegmentedEngine.onReceived s.values p.handle part beyond garbage) := by
  have hc := hs.connection p hp
  have hlt := hs.handles.lt_accepted hp
  have hlive : s.values.engine.connections.find p.handle = some p := hfind
  have hstore : (s.values.inbox p.handle).store part =
      ((s.connection p.handle).readOp.step ⟨none, part.length⟩).map fun r =>
        (⟨r.1, (s.values.inbox p.handle).stored ++ part⟩,
          r.2.map fun _ => (s.values.inbox p.handle).stored ++ part) := rfl
  unfold ServerMemory.onReceived SegmentedEngine.onReceived
  simp only [hrunning, hlive, hstore, Option.isSome_none, Option.isNone_some, Bool.or_self,
    Bool.false_eq_true, if_false]
  cases hstep : (s.connection p.handle).readOp.step ⟨none, part.length⟩ with
  | none => exact simulates_none
  | some r =>
    obtain ⟨readOp, call⟩ := r
    have hfilling := Composed.Filling.step hc.filling hstep
    obtain ⟨heap, hpart, hcs, hext, hsession, hcontents, hsound, hsame⟩ := hs.storePart hp hstep
    simp only [hpart, Option.map_some]
    cases call with
    | none =>
      obtain ⟨-, -, hfilling⟩ | ⟨⟨call, hcall⟩, -⟩ := hfilling
      · have htotal := congrArg ComposedOp.totalTransferred hfilling.op_eq.1
        dsimp only at htotal
        rw [← htotal] at hfilling
        have hext : Extends (s.connection p.handle) s.heap
            { s.connection p.handle with readOp := readOp } heap :=
          ⟨hext.frame, hext.data, hext.refers, hext.owns⟩
        have hvalues := hs.values_set hlt hext
        refine simulates_some
          (hs.set hlt hext ⟨hcs.data, hfilling, hcs.body, hcs.writes, hcs.separate⟩) ?_ none
        have hsame : ({ s.connection p.handle with readOp := readOp } : MemoryConnection).session
            heap = (s.connection p.handle).session s.heap := hsession
        have hcounts : ({ s.connection p.handle with readOp := readOp } : MemoryConnection).inbox
            heap = ⟨readOp, (s.values.inbox p.handle).stored ++ part⟩ := by
          change (⟨readOp, (heap.contents (s.connection p.handle).address).take
            readOp.op.totalTransferred⟩ : Inbox) = _
          rw [htotal, hcontents]
        rw [hvalues, hsame, hcounts, setSession_values]
      · cases hcall
    | some call =>
      obtain ⟨hnone, -⟩ | ⟨-, hfull⟩ := hfilling
      · cases hnone
      have hwhole : (s.set heap p.handle (s.connection p.handle)).heap.contents
          ((s.set heap p.handle (s.connection p.handle)).connection p.handle).address =
            (s.values.inbox p.handle).stored ++ part := by
        have hlength := hcs.holds_address.length
        rw [← hfull] at hlength
        rw [List.take_of_length_le hlength.le] at hcontents
        simp only [ServerMemory.set, Function.update_self]
        exact hcontents
      obtain ⟨s', engine, answer, hread, hs', hengine, hvalues'⟩ :=
        Sound.onRead hsound hrunning hp hfind beyond garbage
      rw [hwhole, hsame] at hread hengine
      rw [hsame] at hvalues'
      simp only [hread, hengine, Option.map_some]
      exact simulates_some hs' hvalues' _

end

section

variable {s : ServerMemory} (hs : s.Sound)

include hs

omit hs in
theorem writes_values (s : ServerMemory) :
    Engine.writes s.values.engine = fun h => (s.connection h).writes.length := by
  funext h
  simp [Engine.writes, values, session, socket]

/-- `remove` frees the `m_data` of the connections with the id, each once. -/
theorem Sound.exists_freeAll (id : ℕ) : ∃ heap, s.heap.freeAll
    ((s.connections.inputCollection.filter fun q => q.id = id).map fun q =>
      (s.connection q.handle).data) = some heap ∧
    Heap.Frame s.heap heap (fun a => ∀ q ∈ s.connections.inputCollection, q.id = id →
      a ≠ (s.connection q.handle).data) ∧
    (∀ q ∈ s.connections.inputCollection, q.id = id →
      ¬heap.Live (s.connection q.handle).data) ∧
    (∀ a, heap.contents a = s.heap.contents a) ∧
    heap.size + 25 * (s.connections.inputCollection.filter fun q => q.id = id).length =
      s.heap.size := by
  have hnodup : ((s.connections.inputCollection.filter fun q => q.id = id).map fun q =>
      (s.connection q.handle).data).Nodup := by
    refine List.Nodup.map_on (fun q hq q' hq' heq => ?_) ?_
    · have hq := List.mem_of_mem_filter hq
      have hq' := List.mem_of_mem_filter hq'
      by_contra hne
      have hhandles : q'.handle ≠ q.handle := fun h => hne (hs.handles.eq hq hq' h.symm)
      exact hs.separate _ (hs.handles.lt_accepted hq) _ (hs.handles.lt_accepted hq') hhandles _
        (Or.inl rfl) (Or.inl (Or.inl heq))
    · have hall : s.connections.inputCollection.Nodup := by
        have hmap := hs.handles.nodup
        exact List.Nodup.of_map _ (List.Nodup.of_map _ hmap)
      exact hall.filter _
  obtain ⟨heap, hfree, hframe, hgone, hcontents, hsize⟩ := Heap.exists_freeAll hnodup
    fun a ha => by
      obtain ⟨q, hq, rfl⟩ := List.mem_map.1 ha
      exact (hs.connection q (List.mem_of_mem_filter hq)).data
  refine ⟨heap, hfree, ⟨hframe.blocks, fun a ha => hframe.block a ?_, hframe.freed⟩,
    fun q hq hid => hgone _ ?_, hcontents, ?_⟩
  · intro hmem
    obtain ⟨q, hq, rfl⟩ := List.mem_map.1 hmem
    obtain ⟨hq, hid⟩ := List.mem_filter.1 hq
    exact ha q hq (of_decide_eq_true hid) rfl
  · exact List.mem_map.2 ⟨q, List.mem_filter.2 ⟨hq, decide_eq_true hid⟩, rfl⟩
  · rw [← hsize, List.length_map]

theorem Sound.onReadFail {p : Protocol}
    (hrunning : s.values.engine.fault = none) (shutdown closed : Option String) :
    (s.onReadFail p shutdown closed).Sound ∧ (s.onReadFail p shutdown closed).values =
      ⟨s.values.engine.onReadFail p shutdown closed, s.values.inbox⟩ := by
  have hsafe := ((fault_values_eq_none_iff s).1 hrunning).2
  unfold ServerMemory.onReadFail Engine.onReadFail
  cases Engine.close shutdown closed with
  | error e =>
    refine ⟨⟨⟨hs.handles.nodup, hs.handles.lt⟩, hs.unused, hs.placed, hs.separate, hs.connection,
      hs.aborted⟩, ?_⟩
    simp [values, hsafe]
  | ok _ =>
    obtain ⟨heap, hfree, hframe, hgone, hcontents, -⟩ := hs.exists_freeAll p.id
    simp only [hfree]
    constructor
    · refine ⟨hs.handles.remove _ p.id, hs.unused, fun h hlt a ha =>
        (hs.placed h hlt a ha).trans_le hframe.blocks, hs.separate, fun q hq => ?_, fun x hx => ?_⟩
      · obtain ⟨hq, hid⟩ := List.mem_filter.1 hq
        refine (hs.connection q hq).frame ⟨hframe.blocks, fun a ha => hframe.block a ?_,
          hframe.freed⟩
        rintro q' hq' hid' rfl
        have hne : q.handle ≠ q'.handle := fun heq => by
          obtain rfl := hs.handles.eq hq hq' heq
          simp [hid'] at hid
        exact hs.separate _ (hs.handles.lt_accepted hq') _ (hs.handles.lt_accepted hq) hne _
          (Or.inl rfl) ha
      · rcases List.mem_append.1 hx with hx | hx
        · exact ⟨(hs.aborted x hx).1, hs.gone hx hframe⟩
        · obtain ⟨q, hq, hid, hxq⟩ := Engine.mem_outstanding hx
          rw [hxq]
          exact ⟨hs.handles.lt_accepted hq, hgone q hq hid⟩
    · have hsame (h : ℕ) := hs.same (h := h) fun _ a _ => hcontents a
      have hsession : (fun h => (s.connection h).session heap) =
          fun h => (s.connection h).session s.heap := funext fun h => (hsame h).1
      have hinbox : (fun h => (s.connection h).inbox heap) =
          fun h => (s.connection h).inbox s.heap := funext fun h => (hsame h).2
      rw [writes_values, values]
      simp only [hsession, hinbox]
      rfl

/-- A handler of a connection that is gone finds it freed. -/
theorem Sound.onAborted {h : ℕ} {operation : Operation} (hmem : (h, operation) ∈ s.aborted) :
    s.touch h none = some (s.violate, none) ∧
      s.violate.values = ⟨s.values.engine.onAborted, s.values.inbox⟩ :=
  ⟨if_neg (hs.aborted _ hmem).2, rfl⟩

/-- A part of a write is what it is to the values. -/
theorem Sound.onWrote {p : Protocol} (hp : p ∈ s.connections.inputCollection) (k n : ℕ) :
    Simulates (s.onWrote p.handle k n)
      ((((s.connection p.handle).socket s.heap).progress k n).map fun socket =>
        (⟨s.values.engine.setSession p.handle
          { s.values.engine.session p.handle with socket := socket }, s.values.inbox⟩, none)) := by
  have hlt := hs.handles.lt_accepted hp
  unfold ServerMemory.onWrote
  rcases (hs.connection p hp).progress k n with ⟨hnone, hnone'⟩ | ⟨c, hprogress, hc, hext,
    hprogress', hinput, hinbox⟩
  · simp only [hnone, hnone', Option.map_none]
    exact simulates_none
  · simp only [hprogress, hprogress', Option.map_some]
    refine simulates_some (hs.set hlt hext hc) ?_ none
    have hsame : Function.update s.values.inbox p.handle
        ((s.connection p.handle).inbox s.heap) = s.values.inbox :=
      Function.update_eq_self p.handle s.values.inbox
    rw [hs.values_set hlt hext, hinbox, hsame, session, hinput]
    rfl

/-- A step of the server in memory is a step of the engine in segments. -/
theorem Sound.step (members : ℕ → ℕ → UInt8) (e : Engine.Event) :
    Simulates ((serverMemory members).step s e) (segmentedEngine.step s.values e) := by
  change Simulates (ServerMemory.step members s e) (SegmentedEngine.step s.values e)
  by_cases hrunning : s.values.engine.fault = none
  · obtain ⟨hfault, hsafe⟩ := (fault_values_eq_none_iff s).1 hrunning
    have hconnections : s.values.engine.connections = s.connections := rfl
    cases e with
    | accept =>
      obtain ⟨hsound, hvalues⟩ := hs.onAccept (members s.connections.accepted)
      simp only [ServerMemory.step, SegmentedEngine.step, Engine.step, hfault, hrunning, hsafe,
        Option.isSome_none, Bool.or_self, Bool.false_eq_true, if_false, Option.map_some]
      exact simulates_some hsound hvalues none
    | received h part beyond garbage =>
      simp only [ServerMemory.step, SegmentedEngine.step, hfault, hsafe, Option.isSome_none,
        Bool.or_self, Bool.false_eq_true, if_false]
      cases hfind : s.connections.find h with
      | none => simp [SegmentedEngine.onReceived, hconnections, hfind, simulates_none]
      | some p =>
        obtain ⟨hp, rfl⟩ := InputConnectionPool.find_spec hfind
        simp only [hs.touch hfind]
        exact hs.onReceived hrunning hp hfind part beyond garbage
    | failed h shutdown closed =>
      simp only [ServerMemory.step, SegmentedEngine.step, Engine.step, hfault, hrunning, hsafe,
        hconnections, Option.isSome_none, Bool.or_self, Bool.false_eq_true, if_false]
      cases hfind : s.connections.find h with
      | none => exact simulates_none
      | some p =>
        obtain ⟨hsound, hvalues⟩ := hs.onReadFail (p := p) hrunning shutdown closed
        simp only [hs.touch hfind]
        exact simulates_some hsound hvalues none
    | wrote h k n =>
      simp only [ServerMemory.step, SegmentedEngine.step, Engine.step, hfault, hrunning, hsafe,
        hconnections, Option.isSome_none, Bool.or_self, Bool.false_eq_true, if_false]
      cases hfind : s.connections.find h with
      | none => exact simulates_none
      | some p =>
        obtain ⟨hp, rfl⟩ := InputConnectionPool.find_spec hfind
        have hwrote := hs.onWrote hp k n
        simp only [hs.touch hfind]
        have hsocket : (s.values.engine.session p.handle).socket =
            (s.connection p.handle).socket s.heap := rfl
        rw [hsocket]
        cases hprogress : ((s.connection p.handle).socket s.heap).progress k n <;>
          simpa only [hprogress, Option.map_none, Option.map_some] using hwrote
    | aborted h operation =>
      have haborted : s.values.engine.aborted = s.aborted := rfl
      simp only [ServerMemory.step, SegmentedEngine.step, Engine.step, hfault, hrunning, hsafe,
        haborted, Option.isSome_none, Bool.or_self, Bool.false_eq_true, if_false]
      by_cases hmem : (h, operation) ∈ s.aborted
      · obtain ⟨htouch, hvalues⟩ := hs.onAborted hmem
        simp only [hmem, htouch, if_true]
        exact simulates_some hs.violate hvalues none
      · simp only [hmem, if_false]
        exact simulates_none
  · have hstopped : s.fault.isSome || s.violated := by
      rw [fault_values_eq_none_iff] at hrunning
      cases hfault : s.fault <;> cases hsafe : s.violated <;> simp_all
    have hfault := Option.isSome_iff_ne_none.2 hrunning
    cases e <;> simp [ServerMemory.step, SegmentedEngine.step, SegmentedEngine.onReceived,
      Engine.step, hstopped, hfault, simulates_none]

end

theorem sound_init (members : ℕ → ℕ → UInt8) : (serverMemory members).init.Sound where
  handles := InputConnectionPool.handles_init
  unused _ _ := rfl
  placed h hlt := absurd hlt (Nat.not_lt_zero h)
  separate h hlt := absurd hlt (Nat.not_lt_zero h)
  connection := by
    rintro p ⟨⟩
  aborted := by
    rintro x ⟨⟩

/-- The server in memory and the engine in segments take the same events, to what the memory
stands for, and with the same answers. -/
theorem bisimulation (members : ℕ → ℕ → UInt8) :
    Machine.Bisimulation (serverMemory members) segmentedEngine fun s t => s.Sound ∧ s.values = t :=
  Machine.Bisimulation.of_map (sound_init members) rfl (fun hs e => (hs.step members e).1)
    fun hs h => (hs.step members _).2 _ _ h

theorem sound_of_run {members : ℕ → ℕ → UInt8} {tr : List (Engine.Event × Option Handled)}
    {s : ServerMemory} (h : (serverMemory members).Run tr s) : s.Sound :=
  h.invariant (sound_init members) fun _ _ _ _ hs hstep => (hs.step members _).2 _ _ hstep

/-- What the memory stands for after a run is the engine in segments after the same events. -/
theorem values_of_run {members : ℕ → ℕ → UInt8} {tr : List (Engine.Event × Option Handled)}
    {s : ServerMemory} (h : (serverMemory members).Run tr s) : segmentedEngine.Run tr s.values := by
  obtain ⟨_, ht, -, rfl⟩ := (bisimulation members).run h
  exact ht

/-- What is a violation is a handler of a connection that is gone. -/
theorem violated_iff {members : ℕ → ℕ → UInt8} {tr : List (Engine.Event × Option Handled)}
    {s' : ServerMemory} (h : (serverMemory members).Run tr s') : s'.violated = true ↔
      ∃ handle operation, tr.getLast? = some (.aborted handle operation, none) := by
  cases h with
  | nil => simp [serverMemory]
  | @snoc tr s _ e o hrun hstep =>
    have hvalues : segmentedEngine.step s.values e = some (s'.values, o) := by
      rw [((sound_of_run hrun).step members e).1, hstep]
      rfl
    have hiff := SegmentedEngine.destroyed_iff (values_of_run hrun) hvalues
    rw [List.getLast?_concat]
    constructor
    · intro hviolated
      obtain ⟨handle, operation, rfl⟩ := hiff.1 (by simp [values, hviolated])
      obtain ⟨_, -, heq⟩ := Option.map_eq_some_iff.1 hvalues
      obtain ⟨-, rfl⟩ := Prod.mk.inj heq
      exact ⟨handle, operation, rfl⟩
    · rintro ⟨handle, operation, heq⟩
      obtain ⟨rfl, rfl⟩ := Prod.mk.inj (Option.some.inj heq)
      simp only [serverMemory, ServerMemory.step, touch] at hstep
      split_ifs at hstep
      obtain ⟨rfl, -⟩ := Prod.mk.inj (Option.some.inj hstep)
      rfl

/-- In every run, whatever the interleaving, every live connection has live buffers of its own.
Nothing is stored, loaded or freed outside of a live block, but for the handlers of connections
that are gone. What the memory stands for is the engine in segments, after the same events with
the same answers. -/
theorem run_values (members : ℕ → ℕ → UInt8) {tr : List (Engine.Event × Option Handled)}
    {s : ServerMemory} (h : (serverMemory members).Run tr s) : s.Sound ∧
      (s.violated = true ↔
        ∃ handle operation, tr.getLast? = some (.aborted handle operation, none)) ∧
      segmentedEngine.Run tr s.values :=
  ⟨sound_of_run h, violated_iff h, values_of_run h⟩

/-- Two connections whose parts interleave, each with a response in part on the wire. The second
is lost, and its `m_data` freed. -/
theorem run_values_interleaved : ∃ tr s, (serverMemory fun _ _ => 7).Run tr s ∧
    s.heap.blocks.map (fun b => (b.contents.length, b.freed)) =
      [(25, false), (25, true), (4, false), (0, false), (29, false), (27, false)] ∧
    [0, 1].map (fun h => (s.connection h).wire.length) = [28, 3] ∧
    s.aborted = [(1, .write 0)] ∧ s.Sound ∧
    (s.violated = true ↔
      ∃ handle operation, tr.getLast? = some (.aborted handle operation, none)) ∧
    segmentedEngine.Run tr s.values := by
  have hrun := Machine.run_of_isSome (serverMemory fun _ _ => 7)
    [.accept, .accept,
      .received 0 ((makeRequest .clientConnect [lit "ada"]).bytes.take 10) [] fun _ => 0,
      .received 1 ((makeRequest .nbrPeopleLoggedIn []).bytes.take 20) [] fun _ => 0,
      .received 0 (((makeRequest .clientConnect [lit "ada"]).bytes.drop 10).take 15) [9]
        fun _ => 0,
      .received 0 (lit "ad") [] fun _ => 0,
      .received 1 ((makeRequest .nbrPeopleLoggedIn []).bytes.drop 20) [] fun _ => 3,
      .received 0 [0x61, 0] [0x2A] fun _ => 5, .received 1 [] [7] fun _ => 4,
      .wrote 0 0 20, .wrote 1 0 3, .wrote 0 0 8, .failed 1 none none] (by decide +kernel)
  exact ⟨_, _, hrun, by decide +kernel, by decide +kernel, by decide +kernel, run_values _ hrun⟩

/-- A client asks, and leaves before its answer has left. -/
example : ∃ tr s, (serverMemory fun _ _ => 7).Run tr s ∧ s.violated = true := by
  have hrun := Machine.run_of_isSome (serverMemory fun _ _ => 7)
    [.accept, .received 0 (makeRequest .nbrPeopleLoggedIn []).bytes [] fun _ => 0,
      .received 0 [] [] fun _ => 0, .failed 0 none none, .aborted 0 (.write 0)] (by decide +kernel)
  exact ⟨_, _, hrun, by decide +kernel⟩

/-- What the handlers of the server in memory do, in all its runs, is what the engine does. -/
theorem engine_run_iff (members : ℕ → ℕ → UInt8) {tr : List (Engine.Event × Option Response)}
    {n : Engine} : engine.Run tr n ↔ ∃ mtr s, (serverMemory members).Run mtr s ∧
      mtr.filterMap SegmentedEngine.seen = tr ∧ s.values.engine = n := by
  rw [SegmentedEngine.run_engine_iff]
  constructor
  · rintro ⟨mtr, t, ht, hseen, hengine⟩
    obtain ⟨s, hs, -, rfl⟩ := (bisimulation members).symm.run ht
    exact ⟨mtr, s, hs, hseen, hengine⟩
  · rintro ⟨mtr, s, hs, hseen, hengine⟩
    exact ⟨mtr, s.values, values_of_run hs, hseen, hengine⟩

end ServerMemory

end SpaceBattle
