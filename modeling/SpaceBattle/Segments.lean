import SpaceBattle.Asio
import SpaceBattle.Connection

/-!
# Segments

The bytes of a client arrive in segments, cut anywhere. `Reader` is the server's end of a
connection as asio runs it : `read` and `read_body` start a composed read each, a segment is
what one `async_read_some` stores, and the handler runs when the buffer is full.

`serve_of_segments` : however the stream is cut, the requests handed over, the connection
and the bytes left in its buffer are those of `serve` on the whole stream, once a read of no
bytes has completed, and a header that throws there throws here.
-/

namespace SpaceBattle

open Cpp Asio InputConnection

/-- The server's end of a connection : the composed read that is outstanding, what its buffer
holds so far, the number of reads before it, and what a header has thrown. -/
structure Reader where
  input : InputConnection
  read : Composed
  stored : List UInt8
  reads : ℕ
  thrown : Option Exn

namespace Reader

/-- The next read is started, on a new buffer. -/
def next (r : Reader) (input : InputConnection) : Reader :=
  ⟨input, (composed input.wanted).init, [], r.reads + 1, none⟩

/-- The handler of the read, `mem` the memory from the buffer on. -/
def onRead (r : Reader) (mem : List UInt8) : Reader × Option Request :=
  match r.input.turn mem with
  | .error e => ({ r with thrown := some e }, none)
  | .ok (input, request) => (r.next input, request)

/-- A segment is stored behind what the buffer holds. `beyond` is the memory after the
buffer at each completion of a read. -/
def step (beyond : ℕ → List UInt8) (r : Reader) (segment : List UInt8) :
    Option (Reader × Option Request) :=
  if r.thrown.isSome then none
  else
    match r.read.step ⟨none, segment.length⟩ with
    | none => none
    | some (read, none) => some ({ r with read := read, stored := r.stored ++ segment }, none)
    | some (_, some _) => some (r.onRead (r.stored ++ segment ++ beyond r.reads))

end Reader

/-- A connection that has been accepted, and the requests its segments make. -/
def reader (beyond : ℕ → List UInt8) : Machine Reader (List UInt8) (Option Request) :=
  ⟨⟨InputConnection.new, (composed 25).init, [], 0, none⟩, Reader.step beyond⟩

namespace Reader

/-- The bytes of the segments. -/
def bytes (tr : List (List UInt8 × Option Request)) : List UInt8 :=
  tr.flatMap Prod.fst

/-- The requests handed over. -/
def requests (tr : List (List UInt8 × Option Request)) : List Request :=
  tr.filterMap Prod.snd

theorem bytes_snoc (tr : List (List UInt8 × Option Request)) (x : List UInt8 × Option Request) :
    bytes (tr ++ [x]) = bytes tr ++ x.1 := by
  simp [bytes]

theorem requests_snoc (tr : List (List UInt8 × Option Request))
    (x : List UInt8 × Option Request) : requests (tr ++ [x]) = requests tr ++ x.2.toList := by
  obtain ⟨segment, _ | request⟩ := x <;> simp [requests]

/-- What a segment does : the buffer is not full yet, or the handler runs. -/
theorem step_cases {beyond : ℕ → List UInt8} {r r' : Reader} {segment : List UInt8}
    {o : Option Request} (h : (reader beyond).step r segment = some (r', o)) : r.thrown = none ∧
      ((∃ read, r.read.step ⟨none, segment.length⟩ = some (read, none) ∧ o = none ∧
        r' = { r with read := read, stored := r.stored ++ segment }) ∨
      ∃ read call, r.read.step ⟨none, segment.length⟩ = some (read, some call) ∧
        r.onRead (r.stored ++ segment ++ beyond r.reads) = (r', o)) := by
  have hthrown : r.thrown = none := by
    by_contra hne
    simp [reader, step, Option.isSome_iff_ne_none.2 hne] at h
  refine ⟨hthrown, ?_⟩
  cases hread : r.read.step ⟨none, segment.length⟩ with
  | none => simp [reader, step, hthrown, hread] at h
  | some result =>
    obtain ⟨read, _ | call⟩ := result
    · obtain ⟨rfl, rfl⟩ : { r with read := read, stored := r.stored ++ segment } = r' ∧
          none = o := by simpa [reader, step, hthrown, hread] using h
      exact Or.inl ⟨read, rfl, rfl, rfl⟩
    · exact Or.inr ⟨read, call, rfl, by simpa [reader, step, hthrown, hread] using h⟩

/-- The outstanding read has stored what the buffer holds, and the buffer is not full. -/
structure Filling (r : Reader) : Prop where
  read : ∃ tr, (composed r.input.wanted).Run tr r.read ∧
    Composed.Running r.input.wanted tr r.read ∧ Composed.transferred tr = r.stored.length

theorem filling_next (r : Reader) (input : InputConnection) : (r.next input).Filling :=
  ⟨Composed.filling_init input.wanted⟩

/-- A segment that does not complete the read leaves the buffer short. -/
theorem Filling.store {r : Reader} (hr : r.Filling) {segment : List UInt8} {read : Composed}
    (h : r.read.step ⟨none, segment.length⟩ = some (read, none)) :
    ({ r with read := read, stored := r.stored ++ segment } : Reader).Filling := by
  rcases Composed.Filling.step hr.read h with ⟨-, -, hread⟩ | ⟨⟨call, hcall⟩, -⟩
  · rw [← List.length_append] at hread
    exact ⟨hread⟩
  · cases hcall

/-- A segment that completes the read fills the buffer. -/
theorem Filling.fill {r : Reader} (hr : r.Filling) {segment : List UInt8} {read : Composed}
    {call : Option String × ℕ}
    (h : r.read.step ⟨none, segment.length⟩ = some (read, some call)) :
    (r.stored ++ segment).length = r.input.wanted := by
  rcases Composed.Filling.step hr.read h with ⟨hnone, -⟩ | ⟨-, hfull⟩
  · cases hnone
  · rw [List.length_append, hfull]

/-- The loop goes on from the buffer as from the start of the stream. -/
structure Follows (beyond : ℕ → List UInt8) (tr : List (List UInt8 × Option Request))
    (r : Reader) : Prop where
  filling : r.Filling
  serve : ∀ rest, serve beyond 0 InputConnection.new (bytes tr ++ rest) =
    (serve beyond r.reads r.input (r.stored ++ rest)).map fun served =>
      (requests tr ++ served.1, served.2)

/-- A segment that completes a read is one turn of the loop, or throws as the loop does. -/
theorem Follows.onRead {beyond : ℕ → List UInt8} {tr : List (List UInt8 × Option Request)}
    {r r' : Reader} (hr : Follows beyond tr r) {segment : List UInt8} {o : Option Request}
    (hfull : (r.stored ++ segment).length = r.input.wanted)
    (h : r.onRead (r.stored ++ segment ++ beyond r.reads) = (r', o)) :
    (r'.thrown = none ∧ Follows beyond (tr ++ [(segment, o)]) r') ∨
      ∃ e, r'.thrown = some e ∧ ∀ rest, InputConnection.serve beyond 0 InputConnection.new
        (bytes (tr ++ [(segment, o)]) ++ rest) = .error e := by
  have hstream (rest : List UInt8) : InputConnection.serve beyond 0 InputConnection.new
      (bytes (tr ++ [(segment, o)]) ++ rest) =
        (InputConnection.serve beyond r.reads r.input (r.stored ++ segment ++ rest)).map
          fun served => (requests tr ++ served.1, served.2) := by
    rw [bytes_snoc, List.append_assoc, hr.serve, List.append_assoc]
  unfold Reader.onRead at h
  cases hturn : r.input.turn (r.stored ++ segment ++ beyond r.reads) with
  | error e =>
    obtain ⟨rfl, rfl⟩ : { r with thrown := some e } = r' ∧ none = o := by
      simpa only [hturn, Prod.mk.injEq] using h
    refine Or.inr ⟨e, rfl, fun rest => ?_⟩
    rw [hstream, serve_turn hfull, hturn]
    rfl
  | ok t =>
    obtain ⟨rfl, rfl⟩ : r.next t.1 = r' ∧ t.2 = o := by
      simpa only [hturn, Prod.mk.injEq] using h
    refine Or.inl ⟨rfl, filling_next r t.1, fun rest => ?_⟩
    rw [hstream, serve_turn hfull, hturn, requests_snoc]
    change Except.map _ (Except.map _ _) =
      Except.map _ (InputConnection.serve beyond (r.reads + 1) t.1 rest)
    cases InputConnection.serve beyond (r.reads + 1) t.1 rest <;> simp [Except.map]

/-- A reader follows the loop until a header throws in both. -/
theorem follows_of_run {beyond : ℕ → List UInt8} {tr : List (List UInt8 × Option Request)}
    {r : Reader} (h : (reader beyond).Run tr r) : (r.thrown = none ∧ Follows beyond tr r) ∨
      ∃ e, r.thrown = some e ∧ ∀ rest, InputConnection.serve beyond 0 InputConnection.new
        (bytes tr ++ rest) = .error e := by
  induction h with
  | nil =>
    refine Or.inl ⟨rfl, ⟨Composed.filling_init 25⟩, fun rest => ?_⟩
    cases hserve : InputConnection.serve beyond 0 InputConnection.new rest with
    | error e => simp [reader, bytes, hserve, Except.map]
    | ok served => simp [reader, bytes, requests, hserve, Except.map]
  | @snoc tr r r' segment o hrun hstep ih =>
    obtain ⟨hthrown, hstored | hread⟩ := step_cases hstep
    · obtain ⟨read, hpart, rfl, rfl⟩ := hstored
      rcases ih with ⟨-, hr⟩ | ⟨e, he, -⟩
      · refine Or.inl ⟨hthrown, hr.filling.store hpart, fun rest => ?_⟩
        rw [bytes_snoc, List.append_assoc, hr.serve, requests_snoc]
        simp
      · simp [hthrown] at he
    · obtain ⟨read, call, hlast, honRead⟩ := hread
      rcases ih with ⟨-, hr⟩ | ⟨e, he, -⟩
      · exact hr.onRead (hr.filling.fill hlast) honRead
      · simp [hthrown] at he

/-- While the outstanding read waits for a byte, the loop stops where the reader is. -/
theorem Follows.serve_bytes {beyond : ℕ → List UInt8} {tr : List (List UInt8 × Option Request)}
    {r : Reader} (hr : Follows beyond tr r) (hwanted : r.input.wanted ≠ 0) :
    InputConnection.serve beyond 0 InputConnection.new (bytes tr) =
      .ok (requests tr, r.input, r.stored) := by
  obtain ⟨ctr, -, hrunning, htransferred⟩ := hr.filling
  have hshort : r.stored.length < r.input.wanted := by
    rcases hrunning.rest with hlt | ⟨hzero, -⟩
    · omega
    · exact absurd hzero hwanted
  have hwhole := hr.serve []
  rw [List.append_nil, List.append_nil, serve_short hshort] at hwhole
  simpa [Except.map] using hwhole

/-- The read of an empty body can complete : its request is handed over, and the next header
is waited for. -/
theorem Filling.exists_step {beyond : ℕ → List UInt8} {r : Reader} (hr : r.Filling)
    (hthrown : r.thrown = none) (hwanted : r.input.wanted = 0) :
    ∃ request, (reader beyond).step r [] = some (r.next r.input.read, some request) := by
  have hbody : r.input.reading = .body := by
    cases hreading : r.input.reading with
    | header => simp [wanted, hreading] at hwanted
    | body => rfl
  obtain ⟨n, read, o, hroom, hpart⟩ := Composed.Filling.exists_step hr.read
  obtain rfl : n = 0 := by omega
  rcases Composed.Filling.step hr.read hpart with ⟨-, hpos, -⟩ | ⟨⟨call, rfl⟩, -⟩
  · exact absurd hpos (lt_irrefl 0)
  · refine ⟨r.input.request (r.stored ++ [] ++ beyond r.reads), ?_⟩
    simp only [reader, step, hthrown, List.length_nil, hpart, Reader.onRead,
      turn_body _ hbody]
    rfl

/-- However a stream is cut into segments, what the connection has handed over, where it
stands and what its buffer holds are what the loop makes of the whole stream; if it waits for
an empty body, then as soon as the read of no bytes completes. It has stopped on a header
exactly as the loop does, whatever follows. -/
theorem serve_of_segments {beyond : ℕ → List UInt8} {tr : List (List UInt8 × Option Request)}
    {r : Reader} (h : (reader beyond).Run tr r) :
    (r.thrown = none → r.input.wanted ≠ 0 →
      InputConnection.serve beyond 0 InputConnection.new (bytes tr) =
        .ok (requests tr, r.input, r.stored)) ∧
    (r.thrown = none → r.input.wanted = 0 → ∃ r' request,
      (reader beyond).step r [] = some (r', some request) ∧ r'.thrown = none ∧
      InputConnection.serve beyond 0 InputConnection.new (bytes tr) =
        .ok (requests tr ++ [request], r'.input, r'.stored)) ∧
    ∀ e, r.thrown = some e → ∀ rest, InputConnection.serve beyond 0 InputConnection.new
      (bytes tr ++ rest) = .error e := by
  rcases follows_of_run h with ⟨hthrown, hr⟩ | ⟨e, hthrown, hserve⟩
  · refine ⟨fun _ hwanted => hr.serve_bytes hwanted, fun _ hwanted => ?_,
      fun e he => by simp [hthrown] at he⟩
    obtain ⟨request, hstep⟩ : ∃ request,
        (reader beyond).step r [] = some (r.next r.input.read, some request) :=
      hr.filling.exists_step hthrown hwanted
    refine ⟨_, request, hstep, rfl, ?_⟩
    rcases follows_of_run (h.snoc hstep) with ⟨-, hr'⟩ | ⟨e, he, -⟩
    · have hwhole := hr'.serve_bytes (show 25 ≠ 0 by decide)
      rwa [bytes_snoc, List.append_nil, requests_snoc] at hwhole
    · cases he
  · refine ⟨fun hnone => by simp [hthrown] at hnone, fun hnone => by simp [hthrown] at hnone,
      fun e' he' rest => ?_⟩
    obtain rfl := Option.some.inj (hthrown.symm.trans he')
    exact hserve rest

/-- A request in four segments, cut inside its header and inside its body, and the first
bytes of the next. -/
theorem serve_of_segments_cut : ∃ tr r, (reader fun _ => [7]).Run tr r ∧
    requests tr = [makeRequest .clientConnect [lit "ada"]] ∧ r.stored.length = 3 ∧
    InputConnection.serve (fun _ => [7]) 0 InputConnection.new (bytes tr) =
      .ok (requests tr, r.input, r.stored) := by
  have hrun := Machine.run_of_isSome (reader fun _ => [7])
    [(makeRequest .clientConnect [lit "ada"]).bytes.take 10,
      ((makeRequest .clientConnect [lit "ada"]).bytes.drop 10).take 15,
      (lit "ad"), [0x61, 0], [0x2A, 0, 0x30]] (by decide +kernel)
  exact ⟨_, _, hrun, by decide +kernel, by decide +kernel,
    (serve_of_segments hrun).1 (by decide +kernel) (by decide +kernel)⟩

end Reader

end SpaceBattle
