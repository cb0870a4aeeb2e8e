import Mathlib.Algebra.BigOperators.Group.Finset.Piecewise
import SpaceBattle.ServerMemory

/-!
# What the server never gives back

`read_body` and `write` allocate, and only `m_data` is ever freed, with its connection.
`exchanged` is what a request has cost when it has been answered, the bytes of its body and of
its response, and `pending` what is allocated for the bodies of requests that have not been.
`size_heap` : after any run, under any interleaving of the connections, this and the `m_data` of
the connections that are still there is what the heap holds.
-/

namespace SpaceBattle

open Cpp AsyncWrite Asio

/-- The size of the body that is still read. -/
def MemoryConnection.pending (c : MemoryConnection) : ℕ :=
  match c.destination with
  | .data => 0
  | .body _ => c.currentHeaderRequest.bufferSize.toNat

theorem MemoryConnection.pending_eq_of_input {c c' : MemoryConnection} (h : c.input = c'.input) :
    c.pending = c'.pending := by
  have hreading := congrArg InputConnection.reading h
  have hheader : c.currentHeaderRequest = c'.currentHeaderRequest :=
    congrArg InputConnection.currentHeaderRequest h
  unfold input at hreading
  unfold pending
  cases hdest : c.destination <;> cases hdest' : c'.destination <;>
    simp only [hdest, hdest', reduceCtorEq] at hreading
  · rfl
  · simp only [hheader]

namespace ServerMemory

open MemoryConnection

/-- The sizes of the bodies whose requests have not been answered : they are still read, or were
when their connections were lost, or have stopped the server. -/
def pending (s : ServerMemory) : ℕ :=
  ∑ h ∈ Finset.range s.connections.accepted, (s.connection h).pending

/-- The bytes of a body and of the response to it. -/
def exchanged : Option Handled → ℕ
  | some (.body data (some response)) => data.length + response.size
  | _ => 0

/-- What is in the heap and not exchanged : what is pending, and the `m_data` of the live
connections. -/
def held (s : ServerMemory) : ℕ :=
  s.pending + 25 * s.connections.inputCollection.length

/-- What a step allocates is held after it, or is exchanged with what was held. -/
def Balanced (s : ServerMemory) (o : Option Handled) (s' : ServerMemory) : Prop :=
  s'.heap.size + s.held = s.heap.size + s'.held + exchanged o

/-- One summand changes. -/
theorem sum_range_update {α : Type*} (f : ℕ → α) (g : α → ℕ) {h n : ℕ} (hlt : h < n) (x : α) :
    ∑ i ∈ Finset.range n, g (Function.update f h x i) + g (f h) =
      ∑ i ∈ Finset.range n, g (f i) + g x := by
  have hmem := Finset.mem_range.2 hlt
  have hupdate : (fun i => g (Function.update f h x i)) =
      Function.update (fun i => g (f i)) h (g x) := Function.comp_update g f h x
  rw [hupdate, Finset.sum_update_of_mem hmem, Finset.sdiff_singleton_eq_erase]
  have hrest := Finset.sum_erase_add (Finset.range n) (fun i => g (f i)) hmem
  omega

variable {s : ServerMemory}

/-- Another connection of a handle that has been accepted. -/
theorem pending_set {h : ℕ} (hlt : h < s.connections.accepted) (heap : Heap UInt8)
    (c : MemoryConnection) :
    (s.set heap h c).pending + (s.connection h).pending = s.pending + c.pending :=
  sum_range_update s.connection MemoryConnection.pending hlt c

/-- Another heap and another connection. -/
theorem balanced_set {h : ℕ} (hlt : h < s.connections.accepted) {heap : Heap UInt8}
    {c : MemoryConnection} {o : Option Handled}
    (hsize : heap.size + (s.connection h).pending = s.heap.size + c.pending + exchanged o) :
    Balanced s o (s.set heap h c) := by
  have hset := pending_set hlt heap c
  change heap.size + (s.pending + 25 * s.connections.inputCollection.length) =
    s.heap.size + ((s.set heap h c).pending + 25 * s.connections.inputCollection.length) +
      exchanged o
  omega

theorem size_readBody (c : MemoryConnection) (heap : Heap UInt8) (garbage : ℕ → UInt8)
    (requestHeader : HeaderRequest) :
    (c.readBody heap garbage requestHeader).1.size =
      heap.size + (c.readBody heap garbage requestHeader).2.pending := by
  refine (Heap.size_alloc heap _).trans ?_
  rw [length_newChars]
  rfl

theorem size_write {c c' : MemoryConnection} {heap heap' : Heap UInt8} {garbage : ℕ → UInt8}
    {response : Response} (h : c.write heap garbage response = some (heap', c')) :
    heap'.size = heap.size + response.size := by
  obtain ⟨heap', hstore, heq⟩ := Option.map_eq_some_iff.1 h
  obtain ⟨rfl, rfl⟩ := Prod.mk.inj heq
  rw [Heap.size_of_store hstore]
  refine (Heap.size_alloc heap _).trans ?_
  rw [length_newChars]

/-- A new connection has its `m_data`. -/
theorem balanced_onAccept (garbage : ℕ → UInt8) : Balanced s none (s.onAccept garbage) := by
  have hheap : (s.onAccept garbage).heap.size = s.heap.size + 25 := by
    refine (Heap.size_alloc s.heap _).trans ?_
    rw [length_newChars]
  have hpending : (s.onAccept garbage).pending = s.pending := by
    change ∑ h ∈ Finset.range (s.connections.accepted + 1), ((s.onAccept garbage).connection
      h).pending = s.pending
    rw [Finset.sum_range_succ]
    refine (congrArg₂ (· + ·) (Finset.sum_congr rfl fun h hh => ?_) ?_).trans (Nat.add_zero _)
    · have hne := (Finset.mem_range.1 hh).ne
      simp only [ServerMemory.onAccept, ServerMemory.set, Function.update_of_ne hne]
    · simp only [ServerMemory.onAccept, ServerMemory.set, Function.update_self]
      rfl
  have hlength : (s.onAccept garbage).connections.inputCollection.length =
      s.connections.inputCollection.length + 1 := List.length_append
  have hnone : exchanged none = 0 := rfl
  unfold Balanced held
  omega

section

variable {p : Protocol} (hlt : p.handle < s.connections.accepted)

include hlt

/-- A header that is decoded makes its body pending. -/
theorem balanced_onHeader (hdest : (s.connection p.handle).destination = .data)
    (data beyond : List UInt8) (garbage : ℕ → UInt8) :
    Balanced s (some (.header data)) (s.onHeader p.handle data beyond garbage) := by
  have hbefore : (s.connection p.handle).pending = 0 := by rw [MemoryConnection.pending, hdest]
  unfold onHeader
  cases HeaderRequest.ofBuffer (data ++ beyond) 25 with
  | error e => rfl
  | ok requestHeader =>
    have hsize := size_readBody (s.connection p.handle) s.heap garbage requestHeader
    refine balanced_set hlt ?_
    rw [hbefore]
    exact hsize

/-- A request that is answered has cost its body, and now its response. -/
theorem balanced_onBody {body : List UInt8}
    (hbody : (s.connection p.handle).pending = body.length) (beyond : List UInt8)
    (garbage : ℕ → UInt8) :
    Balanced s (some (.body body (s.onBody p body beyond garbage).2))
      (s.onBody p body beyond garbage).1 := by
  unfold onBody
  dsimp only
  split
  · rfl
  · rename_i response rp rooms _
    cases hwrite : (s.connection p.handle).write s.heap garbage response with
    | none => rfl
    | some r =>
      obtain ⟨heap, c⟩ := r
      have hset : Balanced s (some (.body body (some response)))
          (s.set heap p.handle c.read) := by
        refine balanced_set hlt ?_
        have hread : c.read.pending = 0 := rfl
        rw [size_write hwrite, hbody, hread, exchanged]
        omega
      have hlength : (s.connections.assign p.handle rp).inputCollection.length =
          s.connections.inputCollection.length := List.length_map _
      unfold Balanced held at hset ⊢
      dsimp only
      rw [hlength]
      exact hset

end

section

variable (hs : s.Sound) {p : Protocol} (hp : p ∈ s.connections.inputCollection)

include hs hp

/-- The handler of a read. -/
theorem Sound.balanced_onRead (beyond : List UInt8) (garbage : ℕ → UInt8) :
    Balanced s (s.onRead p beyond garbage).2 (s.onRead p beyond garbage).1 := by
  have hlt := hs.handles.lt_accepted hp
  have hc := hs.connection p hp
  unfold ServerMemory.onRead
  dsimp only
  cases hdest : (s.connection p.handle).destination with
  | data =>
    have hload : (s.connection p.handle).loadHeader s.heap =
        some (s.heap.contents (s.connection p.handle).data) := hc.data.load_all
    simp only [hload]
    exact balanced_onHeader hlt hdest _ beyond garbage
  | body a =>
    obtain ⟨hbody, hholds⟩ := hc.body a hdest
    have hload : (s.connection p.handle).loadBody s.heap = some (s.heap.contents a) := by
      rw [loadBody, hbody, Option.bind_some, hholds.load_all]
    simp only [hload]
    refine balanced_onBody hlt ?_ beyond garbage
    rw [MemoryConnection.pending, hdest, hholds.length]

/-- A part for a read is stored in a buffer that is there. -/
theorem Sound.balanced_onReceived {part beyond : List UInt8} {garbage : ℕ → UInt8}
    {s' : ServerMemory} {o : Option Handled}
    (h : s.onReceived p part beyond garbage = some (s', o)) : Balanced s o s' := by
  have hlt := hs.handles.lt_accepted hp
  unfold ServerMemory.onReceived at h
  dsimp only at h
  split at h
  · cases h
  rename_i readOp call hstep
  obtain ⟨heap, hpart, -, -, -, -, hsound, -⟩ := hs.storePart hp hstep
  have hsize : heap.size = s.heap.size := Heap.size_of_store hpart
  simp only [hpart] at h
  cases call with
  | none =>
    obtain ⟨rfl, rfl⟩ := Prod.mk.inj (Option.some.inj h)
    refine balanced_set hlt ?_
    rw [hsize]
    rfl
  | some call =>
    have honRead := Sound.balanced_onRead hsound hp beyond garbage
    rw [Option.some.inj h] at honRead
    have hset : Balanced s none (s.set heap p.handle (s.connection p.handle)) := by
      refine balanced_set hlt ?_
      rw [hsize]
      rfl
    unfold Balanced at honRead hset ⊢
    have hnone : exchanged none = 0 := rfl
    dsimp only at honRead
    omega

end

/-- What is lost takes its `m_data` along, and leaves its buffers. -/
theorem Sound.balanced_onReadFail (hs : s.Sound) (p : Protocol) (shutdown closed : Option String) :
    Balanced s none (s.onReadFail p shutdown closed) := by
  unfold ServerMemory.onReadFail
  cases Engine.close shutdown closed with
  | error e => rfl
  | ok _ =>
    obtain ⟨heap, hfree, -, -, -, hsize⟩ := hs.exists_freeAll p.id
    have hlength := List.length_eq_length_filter_add
      (l := s.connections.inputCollection) fun q => decide (q.id = p.id)
    have hleft : (s.connections.inputCollection.filter fun q => q.id ≠ p.id).length =
        (s.connections.inputCollection.filter fun q => !decide (q.id = p.id)).length := by
      simp only [decide_not]
    simp only [hfree]
    change heap.size + (s.pending + 25 * s.connections.inputCollection.length) = s.heap.size +
      (s.pending + 25 * (s.connections.inputCollection.filter fun q => q.id ≠ p.id).length) + 0
    omega

/-- A step of a sound server allocates what is held after it, or is exchanged. -/
theorem Sound.balanced (hs : s.Sound) {members : ℕ → ℕ → UInt8} {e : Engine.Event}
    {s' : ServerMemory} {o : Option Handled}
    (hstep : (serverMemory members).step s e = some (s', o)) : Balanced s o s' := by
  simp only [serverMemory, ServerMemory.step] at hstep
  split at hstep
  · cases hstep
  cases e with
  | accept =>
    obtain ⟨rfl, rfl⟩ := Prod.mk.inj (Option.some.inj hstep)
    exact balanced_onAccept _
  | received h part beyond garbage =>
    cases hfind : s.connections.find h with
    | none => simp [hfind] at hstep
    | some p =>
      simp only [hfind, hs.touch hfind] at hstep
      exact hs.balanced_onReceived (InputConnectionPool.find_spec hfind).1 hstep
  | failed h shutdown closed =>
    cases hfind : s.connections.find h with
    | none => simp [hfind] at hstep
    | some p =>
      simp only [hfind, hs.touch hfind] at hstep
      obtain ⟨rfl, rfl⟩ := Prod.mk.inj (Option.some.inj hstep)
      exact hs.balanced_onReadFail p shutdown closed
  | wrote h k n =>
    cases hfind : s.connections.find h with
    | none => simp [hfind] at hstep
    | some p =>
      obtain ⟨hp, rfl⟩ := InputConnectionPool.find_spec hfind
      simp only [hfind, hs.touch hfind, ServerMemory.onWrote] at hstep
      rcases (hs.connection p hp).progress k n with ⟨hnone, -⟩ | ⟨c, hprogress, -, -, -, hinput, -⟩
      · simp [hnone] at hstep
      · simp only [hprogress] at hstep
        obtain ⟨rfl, rfl⟩ := Prod.mk.inj (Option.some.inj hstep)
        refine balanced_set (hs.handles.lt_accepted hp) ?_
        rw [pending_eq_of_input hinput]
        rfl
  | aborted h operation =>
    dsimp only at hstep
    split_ifs at hstep with hmem
    rw [(hs.onAborted hmem).1] at hstep
    obtain ⟨rfl, rfl⟩ := Prod.mk.inj (Option.some.inj hstep)
    rfl

/-- After any run, whatever the interleaving and whichever connections are left, the heap holds
the bodies and the responses of all the requests that were answered, the bodies of those that
were not, and the `m_data` of the connections that are left. -/
theorem size_heap {members : ℕ → ℕ → UInt8} {tr : List (Engine.Event × Option Handled)}
    {s : ServerMemory} (h : (serverMemory members).Run tr s) :
    s.heap.size = (tr.map fun x => exchanged x.2).sum + s.pending +
      25 * s.connections.inputCollection.length := by
  induction h with
  | nil => rfl
  | @snoc tr s s' e o hrun hstep ih =>
    have hbalanced := (sound_of_run hrun).balanced hstep
    rw [List.map_append, List.sum_append, List.map_singleton, List.sum_singleton]
    unfold Balanced held at hbalanced
    dsimp only
    omega

/-- A connection that is lost with a body still read, after one that was answered, while another
is there. -/
theorem size_heap_lost : ∃ tr s, (serverMemory fun _ _ => 7).Run tr s ∧
    s.connections.names = [(1, 2)] ∧ (s.heap.size, s.pending) = (4 + 29 + 4 + 25, 4) ∧
    s.heap.size = (tr.map fun x => exchanged x.2).sum + s.pending +
      25 * s.connections.inputCollection.length := by
  have hrun := Machine.run_of_isSome (serverMemory fun _ _ => 7)
    [.accept, .accept,
      .received 0 ((makeRequest .clientConnect [lit "ada"]).bytes.take 25) [] fun _ => 0,
      .received 0 ((makeRequest .clientConnect [lit "ada"]).bytes.drop 25) [] fun _ => 0,
      .received 0 ((makeRequest .clientConnect [lit "eve"]).bytes.take 25) [] fun _ => 0,
      .received 0 (lit "e") [] fun _ => 0, .failed 0 none none] (by decide +kernel)
  exact ⟨_, _, hrun, by decide +kernel, by decide +kernel, size_heap hrun⟩

end ServerMemory

end SpaceBattle
