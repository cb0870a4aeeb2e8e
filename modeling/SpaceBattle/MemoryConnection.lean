import SpaceBattle.Lib.Heap
import SpaceBattle.RoundTrips
import SpaceBattle.SegmentedNetwork

/-!
# A connection in memory

Every `InputConnection` of the server reads its headers into a member, `m_data`, its bodies into
what `new char[]` returns, and writes its responses from what `new char[]` returns. asio is
given addresses : a part of a read is stored, and a part of a write is loaded, when it is
transferred. `m_data` is gone with its connection, and what `new char[]` returned is never given
back. `MemoryConnection` is a connection with its outstanding operations, the buffers of all
connections in one heap.

A connection stands for its `session`, whose socket has what is left in the buffers of the
writes, and for its `inbox`, what the buffer of the read has received. Each operation succeeds
on a `Sound` connection, does the same to what it stands for, and writes to no buffer but that
of its own read and to new ones (`Extends`).
-/

namespace SpaceBattle

open Cpp AsyncWrite Asio

/-- Where the outstanding read stores : `m_data`, or what `new char[]` returned. -/
inductive Destination
  | data
  | body (buffer : ℕ)

/-- An `async_write` that is not over. -/
structure OutstandingWrite where
  buffer : ℕ
  size : ℕ
  transferred : ℕ

/-- `InputConnection`, with its socket and the operations outstanding on it. -/
structure MemoryConnection where
  currentHeaderRequest : HeaderRequest
  /-- The address of `m_data`, the block that is there as long as the connection. -/
  data : ℕ
  /-- `m_body`, once it has been set. -/
  body : Option ℕ
  destination : Destination
  readOp : Composed
  wire : List UInt8
  writes : List OutstandingWrite

namespace MemoryConnection

/-- A connection after its first `read`, its `m_data` at the address. -/
def new (data : ℕ) : MemoryConnection :=
  ⟨HeaderRequest.default, data, none, .data, (composed 25).init, [], []⟩

/-- `InputConnection::read`. -/
def read (c : MemoryConnection) : MemoryConnection :=
  { c with destination := .data, readOp := (composed 25).init }

/-- `InputConnection::read_body`, `garbage` what `new char[]` finds. -/
def readBody (c : MemoryConnection) (heap : Heap UInt8) (garbage : ℕ → UInt8)
    (requestHeader : HeaderRequest) : Heap UInt8 × MemoryConnection :=
  let size := requestHeader.bufferSize.toNat
  let (body, heap) := heap.alloc (newChars garbage size)
  (heap, { c with
    currentHeaderRequest := requestHeader
    body := some body
    destination := .body body
    readOp := (composed size).init })

/-- `InputConnection::write`. -/
def write (c : MemoryConnection) (heap : Heap UInt8) (garbage : ℕ → UInt8) (response : Response) :
    Option (Heap UInt8 × MemoryConnection) :=
  let (buffResponse, heap) := heap.alloc (newChars garbage response.size)
  (heap.store buffResponse response.data).map fun heap =>
    (heap, { c with writes := c.writes ++ [⟨buffResponse, response.size, 0⟩] })

/-- The address the outstanding read stores at. -/
def address (c : MemoryConnection) : ℕ :=
  match c.destination with
  | .data => c.data
  | .body buffer => buffer

/-- A part of the outstanding read is stored behind what has been transferred. -/
def storePart (c : MemoryConnection) (heap : Heap UInt8) (part : List UInt8) :
    Option (Heap UInt8) :=
  heap.store c.address (Buffer.copy c.readOp.op.totalTransferred part)

/-- The bytes at `m_data`. -/
def loadHeader (c : MemoryConnection) (heap : Heap UInt8) : Option (List UInt8) :=
  heap.load c.data 0 25

/-- The bytes at `m_body`. -/
def loadBody (c : MemoryConnection) (heap : Heap UInt8) : Option (List UInt8) :=
  c.body.bind fun body => heap.load body 0 c.currentHeaderRequest.bufferSize.toNat

/-- A part of `n` bytes of the `k`-th outstanding write, loaded from its buffer. -/
def progress (c : MemoryConnection) (heap : Heap UInt8) (k n : ℕ) :
    Option (Option MemoryConnection) :=
  match c.writes[k]? with
  | none => none
  | some w =>
    if w.size - w.transferred < n then none
    else
      some ((heap.load w.buffer w.transferred n).map fun bytes =>
        { c with
          wire := c.wire ++ bytes
          writes := if n = w.size - w.transferred then c.writes.eraseIdx k
            else c.writes.set k { w with transferred := w.transferred + n } })

/-! ## What it stands for -/

/-- The connection without its buffers. -/
def input (c : MemoryConnection) : InputConnection :=
  ⟨match c.destination with
    | .data => .header
    | .body _ => .body, c.currentHeaderRequest⟩

/-- The outstanding read, with what it has stored. -/
def inbox (c : MemoryConnection) (heap : Heap UInt8) : Inbox :=
  ⟨c.readOp, (heap.contents c.address).take c.readOp.op.totalTransferred⟩

/-- The socket, with what the outstanding writes have left. -/
def socket (c : MemoryConnection) (heap : Heap UInt8) : Socket UInt8 :=
  ⟨c.wire, c.writes.map fun w => (heap.contents w.buffer).drop w.transferred⟩

def session (c : MemoryConnection) (heap : Heap UInt8) : Session :=
  ⟨c.input, c.socket heap⟩

/-- The block is `m_data`, or what the outstanding read stores into. -/
def Owns (c : MemoryConnection) (a : ℕ) : Prop :=
  a = c.data ∨ c.destination = .body a

/-- The block is one of those, or one that an outstanding write loads from. -/
def Refers (c : MemoryConnection) (a : ℕ) : Prop :=
  c.Owns a ∨ ∃ w ∈ c.writes, w.buffer = a

/-- `m_data` and the operations of a connection have live buffers of the right size, and none of
its writes one of its own. -/
structure Sound (c : MemoryConnection) (heap : Heap UInt8) : Prop where
  data : heap.Holds c.data 25
  filling : Composed.Filling c.input.wanted c.readOp c.readOp.op.totalTransferred
  body : ∀ a, c.destination = .body a →
    c.body = some a ∧ heap.Holds a c.currentHeaderRequest.bufferSize.toNat
  writes : ∀ w ∈ c.writes, heap.Holds w.buffer w.size ∧ w.transferred ≤ w.size
  separate : ∀ a, c.Owns a → ∀ w ∈ c.writes, w.buffer ≠ a

variable {c c' : MemoryConnection} {heap heap' : Heap UInt8}

theorem owns_address (c : MemoryConnection) : c.Owns c.address := by
  unfold address
  cases hdest : c.destination with
  | data => exact Or.inl rfl
  | body a => exact Or.inr hdest

theorem owns_new {data a : ℕ} (h : (MemoryConnection.new data).Owns a) : a = data := by
  rcases h with rfl | ⟨⟨⟩⟩
  rfl

theorem refers_new {data a : ℕ} (h : (MemoryConnection.new data).Refers a) : a = data := by
  rcases h with h | ⟨w, ⟨⟩, -⟩
  exact owns_new h

/-- A new connection reads into `m_data`. -/
theorem sound_new {data : ℕ} (hdata : heap.Holds data 25) :
    (MemoryConnection.new data).Sound heap := by
  refine ⟨hdata, Composed.filling_init 25, ?_, ?_, ?_⟩
  · rintro a ⟨⟩
  · rintro w ⟨⟩
  · rintro a - w ⟨⟩

/-- The buffers of a sound connection are blocks of the heap. -/
theorem Sound.lt_of_refers (hc : c.Sound heap) {a : ℕ} (ha : c.Refers a) :
    a < heap.blocks.length := by
  rcases ha with (rfl | ha) | ⟨w, hw, rfl⟩
  · exact hc.data.live.lt
  · exact (hc.body a ha).2.live.lt
  · exact (hc.writes w hw).1.live.lt

/-- The buffer of a read is as long as the read waits for. -/
theorem Sound.holds_address (hc : c.Sound heap) : heap.Holds c.address c.input.wanted := by
  unfold address input InputConnection.wanted
  cases hdest : c.destination with
  | data => exact hc.data
  | body a => exact (hc.body a hdest).2

/-- A connection whose buffers hold the same stands for the same. -/
theorem same_of_contents (h : ∀ a, c.Refers a → heap'.contents a = heap.contents a) :
    c.session heap' = c.session heap ∧ c.inbox heap' = c.inbox heap := by
  constructor
  · simp only [session, socket, Session.mk.injEq, Socket.mk.injEq, true_and]
    exact List.map_congr_left fun w hw => by rw [h w.buffer (Or.inr ⟨w, hw, rfl⟩)]
  · rw [inbox, inbox, h c.address (Or.inl c.owns_address)]

/-- A connection whose buffers are framed stays sound. -/
theorem Sound.frame (hc : c.Sound heap) (hframe : Heap.Frame heap heap' c.Refers) :
    c.Sound heap' := by
  refine ⟨?_, hc.filling, fun a ha => ?_, fun w hw => ?_, hc.separate⟩
  · exact hc.data.frame hframe (Or.inl (Or.inl rfl))
  · exact ⟨(hc.body a ha).1, (hc.body a ha).2.frame hframe (Or.inl (Or.inr ha))⟩
  · exact ⟨(hc.writes w hw).1.frame hframe (Or.inr ⟨w, hw, rfl⟩), (hc.writes w hw).2⟩

/-- What an operation of a connection does to the heap and the connection : it writes to its own
blocks and to new ones, keeps its `m_data`, and the buffers it takes on are its own or new. -/
structure Extends (c : MemoryConnection) (heap : Heap UInt8) (c' : MemoryConnection)
    (heap' : Heap UInt8) : Prop where
  frame : ∀ P : ℕ → Prop, (∀ a, c.Owns a → ¬P a) → Heap.Frame heap heap' P
  data : c'.data = c.data
  refers : ∀ a, c'.Refers a → c.Refers a ∨ heap.blocks.length ≤ a
  owns : ∀ a, c'.Owns a → c.Owns a ∨ heap.blocks.length ≤ a

theorem extends_of_le (hdata : c'.data = c.data) (hrefers : ∀ a, c'.Refers a → c.Refers a)
    (howns : ∀ a, c'.Owns a → c.Owns a) : Extends c heap c' heap where
  frame P _ := Heap.Frame.refl heap P
  data := hdata
  refers a ha := Or.inl (hrefers a ha)
  owns a ha := Or.inl (howns a ha)

/-! ## The operations of a connection -/

/-- A part that the read has room for is stored, and the connection stands for the same until
the part is counted. -/
theorem Sound.storePart (hc : c.Sound heap) {part : List UInt8}
    (hle : c.readOp.op.totalTransferred + part.length ≤ c.input.wanted) :
    ∃ heap', c.storePart heap part = some heap' ∧ c.Sound heap' ∧ Extends c heap c heap' ∧
      c.session heap' = c.session heap ∧ c.inbox heap' = c.inbox heap ∧
      (heap'.contents c.address).take (c.readOp.op.totalTransferred + part.length) =
        (c.inbox heap).stored ++ part := by
  have hholds := hc.holds_address
  have hroom : c.readOp.op.totalTransferred + part.length ≤ (heap.contents c.address).length := by
    rwa [hholds.length]
  obtain ⟨htake, htake'⟩ := Buffer.take_store_copy hroom
  have hinside : ∀ i ∈ (Buffer.copy c.readOp.op.totalTransferred part).map Prod.fst,
      i < c.input.wanted := fun i hi => by
    rw [Buffer.map_fst_copy, List.mem_range'_1] at hi
    omega
  obtain ⟨heap', hstore⟩ := hholds.exists_store hinside
  have hcontents := Heap.contents_of_store hstore
  have hframe : Heap.Frame heap heap' fun a => a ≠ c.address :=
    Heap.frame_of_store hstore fun hself => hself rfl
  refine ⟨heap', hstore, ⟨Heap.holds_of_store hstore hc.data, hc.filling, fun a ha =>
      ⟨(hc.body a ha).1, Heap.holds_of_store hstore (hc.body a ha).2⟩, fun w hw =>
      ⟨Heap.holds_of_store hstore (hc.writes w hw).1, (hc.writes w hw).2⟩, hc.separate⟩,
    ⟨fun P hP => Heap.frame_of_store hstore (hP _ c.owns_address), rfl, fun _ h => Or.inl h,
      fun _ h => Or.inl h⟩, ?_, ?_, ?_⟩
  · simp only [session, socket, Session.mk.injEq, Socket.mk.injEq, true_and]
    exact List.map_congr_left fun w hw => by
      rw [hframe.contents (hc.separate _ c.owns_address w hw) (hc.writes w hw).1.live.lt]
  · rw [inbox, inbox, hcontents, htake]
  · rw [hcontents, htake', inbox]

/-- `read_body` starts a read into a new block. -/
theorem Sound.readBody (hc : c.Sound heap) {heap' : Heap UInt8} {c' : MemoryConnection}
    {garbage : ℕ → UInt8} {requestHeader : HeaderRequest}
    (h : c.readBody heap garbage requestHeader = (heap', c')) :
    c'.Sound heap' ∧ Extends c heap c' heap' ∧
      c'.session heap' = ⟨c.input.readBody requestHeader, c.socket heap⟩ ∧
      c'.inbox heap' = Inbox.new requestHeader.bufferSize.toNat := by
  obtain ⟨rfl, rfl⟩ := Prod.mk.inj h
  have hframe := Heap.frame_alloc heap (newChars garbage requestHeader.bufferSize.toNat)
  have halloc := hc.frame (hframe c.Refers)
  have hsession := (same_of_contents fun a ha =>
    (hframe c.Refers).contents ha (hc.lt_of_refers ha)).1
  have hholds := Heap.holds_alloc heap (newChars garbage requestHeader.bufferSize.toNat)
  rw [length_newChars] at hholds
  refine ⟨⟨halloc.data, Composed.filling_init _, ?_, halloc.writes, ?_⟩,
    ⟨fun P _ => hframe P, rfl, ?_, ?_⟩, ?_, rfl⟩
  · rintro a ⟨⟩
    exact ⟨rfl, hholds⟩
  · rintro a (rfl | ⟨⟨⟩⟩) w hw
    · exact hc.separate _ (Or.inl rfl) w hw
    · exact (hc.writes w hw).1.live.lt.ne
  · rintro a ((rfl | ⟨⟨⟩⟩) | hw)
    · exact Or.inl (Or.inl (Or.inl rfl))
    · exact Or.inr le_rfl
    · exact Or.inl (Or.inr hw)
  · rintro a (rfl | ⟨⟨⟩⟩)
    · exact Or.inl (Or.inl rfl)
    · exact Or.inr le_rfl
  · exact congrArg (Session.mk _) (congrArg Session.socket hsession)

/-- `write` starts to write the response, from a new block. -/
theorem Sound.write (hc : c.Sound heap) (garbage : ℕ → UInt8) (response : Response) :
    ∃ heap' c', c.write heap garbage response = some (heap', c') ∧ c'.Sound heap' ∧
      Extends c heap c' heap' ∧ c'.input = c.input ∧
      c'.socket heap' = (c.socket heap).asyncWrite (InputConnection.write garbage response) := by
  have hholds := Heap.holds_alloc heap (newChars garbage response.size)
  rw [length_newChars] at hholds
  obtain ⟨heap', hstore⟩ := hholds.exists_store response.fst_lt_size
  have hcontents := Heap.contents_of_store hstore
  rw [Heap.contents_alloc] at hcontents
  have hframe := Heap.frame_of_alloc_store hstore
  have hsound := hc.frame (hframe c.Refers)
  have hsession := (same_of_contents fun a ha =>
    (hframe c.Refers).contents ha (hc.lt_of_refers ha)).1
  refine ⟨heap', { c with writes := c.writes ++
      [⟨(heap.alloc (newChars garbage response.size)).1, response.size, 0⟩] },
    by simp only [MemoryConnection.write, hstore, Option.map_some],
    ⟨hsound.data, hc.filling, hsound.body, fun w hw => ?_, fun a ha w hw => ?_⟩,
    ⟨fun P _ => hframe P, rfl, ?_, fun _ h => Or.inl h⟩, rfl, ?_⟩
  · rcases List.mem_append.1 hw with hw | hw
    · exact hsound.writes w hw
    · rw [List.mem_singleton.1 hw]
      exact ⟨Heap.holds_of_store hstore hholds, Nat.zero_le _⟩
  · rcases List.mem_append.1 hw with hw | hw
    · exact hc.separate a ha w hw
    · rw [List.mem_singleton.1 hw]
      exact (hc.lt_of_refers (Or.inl ha)).ne'
  · rintro a (ha | ⟨w, hw, rfl⟩)
    · exact Or.inl (Or.inl ha)
    · rcases List.mem_append.1 hw with hw | hw
      · exact Or.inl (Or.inr ⟨w, hw, rfl⟩)
      · rw [List.mem_singleton.1 hw]
        exact Or.inr le_rfl
  · have hrests := congrArg Socket.outstanding (congrArg Session.socket hsession)
    simp only [session, socket] at hrests
    simp only [socket, List.map_append, hrests, List.map_singleton, hcontents, List.drop_zero]
    rfl

/-- Other writes from the same buffers, no further than their sizes. -/
theorem Sound.withWrites (hc : c.Sound heap) (wire : List UInt8) {writes : List OutstandingWrite}
    (hwrites : ∀ w ∈ writes, w.transferred ≤ w.size ∧
      ∃ w' ∈ c.writes, w'.buffer = w.buffer ∧ w'.size = w.size) :
    ({ c with wire := wire, writes := writes } : MemoryConnection).Sound heap ∧
      Extends c heap { c with wire := wire, writes := writes } heap := by
  refine ⟨⟨hc.data, hc.filling, hc.body, fun w hw => ?_, fun a ha w hw => ?_⟩,
    extends_of_le rfl ?_ fun _ h => h⟩
  · obtain ⟨hle, w', hw', hbuffer, hsize⟩ := hwrites w hw
    rw [← hbuffer, ← hsize]
    exact ⟨(hc.writes w' hw').1, hsize ▸ hle⟩
  · obtain ⟨-, w', hw', hbuffer, -⟩ := hwrites w hw
    rw [← hbuffer]
    exact hc.separate a ha w' hw'
  · rintro a (ha | ⟨w, hw, rfl⟩)
    · exact Or.inl ha
    · obtain ⟨-, w', hw', hbuffer, -⟩ := hwrites w hw
      exact Or.inr ⟨w', hw', hbuffer⟩

/-- A part of an outstanding write is loaded from its buffer, and is the next of what the socket
has left. -/
theorem Sound.progress (hc : c.Sound heap) (k n : ℕ) :
    (c.progress heap k n = none ∧ (c.socket heap).progress k n = none) ∨
      ∃ c', c.progress heap k n = some (some c') ∧ c'.Sound heap ∧ Extends c heap c' heap ∧
        (c.socket heap).progress k n = some (c'.socket heap) ∧ c'.input = c.input ∧
        c'.inbox heap = c.inbox heap := by
  have hrest : (c.socket heap).outstanding[k]? =
      c.writes[k]?.map fun w => (heap.contents w.buffer).drop w.transferred :=
    List.getElem?_map
  cases hw : c.writes[k]? with
  | none =>
    rw [hw, Option.map_none] at hrest
    exact Or.inl ⟨by simp [MemoryConnection.progress, hw], by simp [Socket.progress, hrest]⟩
  | some w =>
    rw [hw, Option.map_some] at hrest
    have hmem := List.mem_of_getElem? hw
    obtain ⟨hholds, hle⟩ := hc.writes w hmem
    have hlength : ((heap.contents w.buffer).drop w.transferred).length =
        w.size - w.transferred := by
      rw [List.length_drop, hholds.length]
    by_cases hn : w.size - w.transferred < n
    · exact Or.inl ⟨by simp [MemoryConnection.progress, hw, hn],
        by simp [Socket.progress, hrest, hlength, hn]⟩
    have hload := hholds.load (i := w.transferred) (k := n) (by omega)
    have hwrites : ∀ w' ∈ (if n = w.size - w.transferred then c.writes.eraseIdx k
        else c.writes.set k { w with transferred := w.transferred + n }),
        w'.transferred ≤ w'.size ∧ ∃ w'' ∈ c.writes, w''.buffer = w'.buffer ∧
          w''.size = w'.size := fun w' hw' => by
      split at hw'
      · have hw' := List.mem_of_mem_eraseIdx hw'
        exact ⟨(hc.writes w' hw').2, w', hw', rfl, rfl⟩
      · rcases List.mem_or_eq_of_mem_set hw' with hw' | rfl
        · exact ⟨(hc.writes w' hw').2, w', hw', rfl, rfl⟩
        · exact ⟨by dsimp only; omega, w, hmem, rfl, rfl⟩
    obtain ⟨hsound, hext⟩ := hc.withWrites
      (c.wire ++ ((heap.contents w.buffer).drop w.transferred).take n) hwrites
    refine Or.inr ⟨_, ?_, hsound, hext, ?_, rfl, rfl⟩
    · simp only [MemoryConnection.progress, hw, hn, if_false, hload, Option.map_some]
    rw [Socket.progress, hrest]
    dsimp only
    rw [hlength, if_neg hn]
    simp only [socket]
    split
    · rw [List.eraseIdx_map]
    · rw [List.map_set, List.drop_drop]

theorem session_read (c : MemoryConnection) (heap : Heap UInt8) :
    c.read.session heap = ⟨c.input.read, c.socket heap⟩ :=
  rfl

theorem inbox_read (c : MemoryConnection) (heap : Heap UInt8) :
    c.read.inbox heap = Inbox.new 25 :=
  rfl

/-- `read` starts a read into `m_data`. -/
theorem Sound.read (hc : c'.Sound heap') (h : Extends c heap c' heap') :
    c'.read.Sound heap' ∧ Extends c heap c'.read heap' := by
  have howns (a : ℕ) (ha : c'.read.Owns a) : c'.Owns a := by
    rcases ha with rfl | ⟨⟨⟩⟩
    exact Or.inl rfl
  refine ⟨⟨hc.data, Composed.filling_init 25, ?_, hc.writes, fun a ha =>
      hc.separate a (howns a ha)⟩,
    h.frame, h.data, fun a ha => h.refers a ?_, fun a ha => h.owns a (howns a ha)⟩
  · rintro a ⟨⟩
  · rcases ha with ha | ha
    · exact Or.inl (howns a ha)
    · exact Or.inr ha

end MemoryConnection

end SpaceBattle
