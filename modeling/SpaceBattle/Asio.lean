import Mathlib.Algebra.GroupWithZero.Nat
import Mathlib.Data.List.InsertIdx
import SpaceBattle.Lib.AsyncWrite
import SpaceBattle.Lib.Machine

/-!
# Composed reads and writes

`asio::async_read` and `asio::async_write` with one buffer, as `read_op` and `write_op`
implement them : the operation asks `async_read_some` or `async_write_some` for the rest of
the buffer, at most 65536 bytes at a time, counts what each transfers, and calls its handler
when all is transferred, or with the first error. The two templates have one body, so
`ComposedOp` is both.

`composed_of_run` : if each `_some` operation that succeeds transfers a byte at least, as
`async_read_some` does (`allowed_of_readSome`), then the handler is called at most once, with
success exactly if the whole buffer has been transferred, and no operation asks for a byte
behind the buffer. A socket whose writes are composed operations is a `Socket` whose writes
progress part by part (`writes_refine`).
-/

namespace SpaceBattle

namespace Asio

/-! ## One receive -/

/-- What `recv` returns. -/
inductive Recv
  | bytes (n : ℕ)
  | interrupted
  | wouldBlock
  | failed (what : String)
  deriving DecidableEq

/-- `socket_ops::non_blocking_recv` on a stream, given what `recv` returns each time : the
error code and the number of bytes, if the operation is complete. -/
def nonBlockingRecv : List Recv → Option (Option String × ℕ)
  | [] => none
  | .bytes 0 :: _ => some (some "End of file", 0)
  | .bytes n :: _ => some (none, n)
  | .interrupted :: results => nonBlockingRecv results
  | .wouldBlock :: _ => none
  | .failed what :: _ => some (some what, 0)

/-- A receive that succeeds has received something, and what one `recv` returned. -/
theorem nonBlockingRecv_cases : ∀ {results : List Recv} {ec : Option String} {n : ℕ},
    nonBlockingRecv results = some (ec, n) → (ec ≠ none ∧ n = 0) ∨ (0 < n ∧ .bytes n ∈ results)
  | .bytes 0 :: _, ec, n, h => by
    obtain ⟨rfl, rfl⟩ : some "End of file" = ec ∧ 0 = n := by simpa [nonBlockingRecv] using h
    exact Or.inl ⟨by simp, rfl⟩
  | .bytes (m + 1) :: _, ec, n, h => by
    obtain ⟨-, rfl⟩ : none = ec ∧ m + 1 = n := by simpa [nonBlockingRecv] using h
    exact Or.inr ⟨Nat.succ_pos m, by simp⟩
  | .interrupted :: results, ec, n, h => by
    have hrest : nonBlockingRecv results = some (ec, n) := h
    exact (nonBlockingRecv_cases hrest).imp id (And.imp id (List.mem_cons_of_mem _))
  | .failed what :: _, ec, n, h => by
    obtain ⟨rfl, rfl⟩ : some what = ec ∧ 0 = n := by simpa [nonBlockingRecv] using h
    exact Or.inl ⟨by simp, rfl⟩

/-! ## The composed operation -/

/-- `default_max_transfer_size`. -/
def defaultMaxTransferSize : ℕ :=
  65536

/-- `check_for_completion` with `transfer_all_t`. -/
def checkForCompletion (ec : Option String) : ℕ :=
  if ec.isSome then 0 else defaultMaxTransferSize

/-- The size of `asio::buffer(buffer_ + start, n)`, `size` the size of `buffer_`. -/
def bufferAt (size start n : ℕ) : ℕ :=
  let rest := if size < start then 0 else size - start
  if rest < n then rest else n

theorem bufferAt_le (size start n : ℕ) : bufferAt size start n ≤ size - start := by
  unfold bufferAt
  dsimp only
  split_ifs <;> omega

/-- While something is left, the next operation asks for a byte at least. -/
theorem bufferAt_pos {size start n : ℕ} (hlt : start < size) (hn : 0 < n) :
    0 < bufferAt size start n := by
  unfold bufferAt
  dsimp only
  split_ifs <;> omega

/-- `read_op` and `write_op` : the size of `buffer_`, and `total_transferred_`. -/
structure ComposedOp where
  bufferSize : ℕ
  totalTransferred : ℕ
  deriving DecidableEq

/-- How a call of `operator()` ends. -/
inductive Turn
  /-- `async_read_some` or `async_write_some` is started on `n` bytes. -/
  | some (n : ℕ)
  | handler (ec : Option String) (totalTransferred : ℕ)
  deriving DecidableEq

namespace ComposedOp

/-- The call with `start` that initiates the operation. -/
def start (op : ComposedOp) : Turn :=
  .some (bufferAt op.bufferSize op.totalTransferred (checkForCompletion none))

/-- The call when an operation has completed. -/
def resume (op : ComposedOp) (ec : Option String) (bytesTransferred : ℕ) : ComposedOp × Turn :=
  let op : ComposedOp := ⟨op.bufferSize, op.totalTransferred + bytesTransferred⟩
  let n := checkForCompletion ec
  if (ec.isNone && bytesTransferred == 0) || n == 0 || op.totalTransferred == op.bufferSize then
    (op, .handler ec op.totalTransferred)
  else (op, .some (bufferAt op.bufferSize op.totalTransferred n))

end ComposedOp

/-- An operation and where its last call ended. -/
structure Composed where
  op : ComposedOp
  turn : Turn
  deriving DecidableEq

namespace Composed

/-- The completion of a `_some` operation : the error code and the bytes transferred. -/
structure Completion where
  ec : Option String
  bytesTransferred : ℕ
  deriving DecidableEq

/-- What is asked of a `_some` operation on `n` bytes : it transfers no more, and something
if it succeeds, unless there was nothing to transfer. -/
def Completion.Allowed (e : Completion) (n : ℕ) : Prop :=
  e.bytesTransferred ≤ n ∧ (e.ec = none → e.bytesTransferred = 0 → n = 0)

instance (e : Completion) (n : ℕ) : Decidable (e.Allowed n) :=
  inferInstanceAs (Decidable (_ ∧ _))

/-- The completion of `async_read_some` on `n` bytes, given what `recv` returns each time : at
once if `n` is zero. -/
def readSome (n : ℕ) (results : List Recv) : Option Completion :=
  if n = 0 then some ⟨none, 0⟩
  else (nonBlockingRecv results).map fun r => ⟨r.1, r.2⟩

/-- If `recv` stores no more than it is given room for, `async_read_some` keeps to what is
asked of it. -/
theorem allowed_of_readSome {n : ℕ} {results : List Recv} {e : Completion}
    (hroom : ∀ m, .bytes m ∈ results → m ≤ n) (h : readSome n results = some e) :
    e.Allowed n := by
  unfold readSome at h
  split at h
  · rename_i hzero
    cases h
    exact ⟨Nat.zero_le n, fun _ _ => hzero⟩
  · obtain ⟨⟨ec, m⟩, hrecv, rfl⟩ := Option.map_eq_some_iff.1 h
    rcases nonBlockingRecv_cases hrecv with ⟨hec, hzero⟩ | ⟨hpos, hmem⟩
    · exact ⟨hzero ▸ Nat.zero_le n, fun hnone => absurd hnone hec⟩
    · exact ⟨hroom m hmem, fun _ hzero => absurd hzero hpos.ne'⟩

def step (s : Composed) (e : Completion) : Option (Composed × Option (Option String × ℕ)) :=
  match s.turn with
  | .handler _ _ => none
  | .some n =>
    if ¬e.Allowed n then none
    else
      match s.op.resume e.ec e.bytesTransferred with
      | (op, .some n) => some (⟨op, .some n⟩, none)
      | (op, .handler ec total) => some (⟨op, .handler ec total⟩, some (ec, total))

end Composed

/-- A composed operation on a buffer of the size, and the calls of its handler. -/
def composed (bufferSize : ℕ) :
    Machine Composed Composed.Completion (Option (Option String × ℕ)) :=
  ⟨⟨⟨bufferSize, 0⟩, (⟨bufferSize, 0⟩ : ComposedOp).start⟩, Composed.step⟩

/-! ## One operation -/

namespace Composed

/-- What a completion does : it is the last, or it leaves something to transfer. -/
theorem step_cases {size : ℕ} {s s' : Composed} {e : Completion}
    {o : Option (Option String × ℕ)} (h : (composed size).step s e = some (s', o)) :
    ∃ n, s.turn = .some n ∧ e.Allowed n ∧
      s'.op = ⟨s.op.bufferSize, s.op.totalTransferred + e.bytesTransferred⟩ ∧
      ((((e.ec = none ∧ e.bytesTransferred = 0) ∨ e.ec ≠ none ∨
          s'.op.totalTransferred = s'.op.bufferSize) ∧
        s'.turn = .handler e.ec s'.op.totalTransferred ∧
        o = some (e.ec, s'.op.totalTransferred)) ∨
      (e.ec = none ∧ e.bytesTransferred ≠ 0 ∧ s'.op.totalTransferred ≠ s'.op.bufferSize ∧
        s'.turn = s'.op.start ∧ o = none)) := by
  obtain ⟨op, turn⟩ := s
  obtain ⟨ec, bytes⟩ := e
  cases turn with
  | handler => cases h
  | some n =>
    by_cases hallowed : (⟨ec, bytes⟩ : Completion).Allowed n
    · refine ⟨n, rfl, hallowed, ?_⟩
      simp only [composed, step, not_true_eq_false, if_false, hallowed] at h
      unfold ComposedOp.resume at h
      dsimp only at h
      split at h
      · rename_i heq
        split at heq
        · cases heq
        · rename_i hmore
          cases heq
          cases h
          cases ec with
          | some what => simp [checkForCompletion] at hmore
          | none =>
            have hmore : bytes ≠ 0 ∧ op.totalTransferred + bytes ≠ op.bufferSize := by
              simpa [checkForCompletion, defaultMaxTransferSize] using hmore
            exact ⟨rfl, Or.inr ⟨rfl, hmore.1, hmore.2, rfl, rfl⟩⟩
      · rename_i heq
        split at heq
        · rename_i hlast
          cases heq
          cases h
          refine ⟨rfl, Or.inl ⟨?_, rfl, rfl⟩⟩
          cases ec with
          | some what => exact Or.inr (Or.inl (by simp))
          | none =>
            have hlast : bytes = 0 ∨ op.totalTransferred + bytes = op.bufferSize := by
              simpa [checkForCompletion, defaultMaxTransferSize] using hlast
            exact hlast.imp (fun hzero => ⟨rfl, hzero⟩) Or.inr
        · cases heq
    · simp [composed, step, hallowed] at h

/-- The bytes transferred so far. -/
def transferred (tr : List (Completion × Option (Option String × ℕ))) : ℕ :=
  (tr.map fun x => x.1.bytesTransferred).sum

theorem transferred_snoc (tr : List (Completion × Option (Option String × ℕ)))
    (x : Completion × Option (Option String × ℕ)) :
    transferred (tr ++ [x]) = transferred tr + x.1.bytesTransferred := by
  simp [transferred]

/-- The operation goes on : nothing has failed, its handler has not been called, and what it
has asked for lies in the buffer. -/
structure Running (size : ℕ) (tr : List (Completion × Option (Option String × ℕ)))
    (s : Composed) : Prop where
  turn : s.turn = s.op.start
  quiet : ∀ x ∈ tr, x.1.ec = none ∧ x.2 = none
  length : tr.length ≤ transferred tr
  rest : transferred tr < size ∨ size = 0 ∧ tr = []

/-- The operation is over : its handler was called by the last completion, with its error
code. -/
structure Finished (size : ℕ) (tr : List (Completion × Option (Option String × ℕ)))
    (s : Composed) : Prop where
  last : ∃ tr₁ e, tr = tr₁ ++ [(e, some (e.ec, transferred tr))] ∧
    s.turn = .handler e.ec (transferred tr) ∧ (e.ec = none → transferred tr = size) ∧
    (∀ x ∈ tr₁, x.1.ec = none ∧ x.2 = none) ∧ tr₁.length ≤ transferred tr₁

/-- In every state of a run the operation goes on or is over, and it has counted what was
transferred, which is no more than the buffer holds. -/
theorem running_or_finished {size : ℕ} {tr : List (Completion × Option (Option String × ℕ))}
    {s : Composed} (h : (composed size).Run tr s) :
    s.op = ⟨size, transferred tr⟩ ∧ transferred tr ≤ size ∧
      (Running size tr s ∨ Finished size tr s) := by
  refine h.invariant_trace (I := fun tr s => s.op = ⟨size, transferred tr⟩ ∧
      transferred tr ≤ size ∧ (Running size tr s ∨ Finished size tr s))
    ⟨rfl, Nat.zero_le _, Or.inl ⟨rfl, by simp, le_rfl, ?_⟩⟩ ?_
  · rcases Nat.eq_zero_or_pos size with hzero | hpos
    · exact Or.inr ⟨hzero, rfl⟩
    · exact Or.inl hpos
  rintro tr s e s' o - ⟨hop, hle, hs⟩ hstep
  obtain ⟨n, hturn, ⟨hbytes, hsome⟩, hop', hnext⟩ := step_cases hstep
  rcases hs with hs | ⟨tr₁, e₁, -, hover, -⟩
  · have hstart := hturn.symm.trans hs.turn
    rw [hop, ComposedOp.start] at hstart
    obtain rfl := Turn.some.inj hstart
    have hroom := bufferAt_le size (transferred tr) (checkForCompletion none)
    rw [hop] at hop'
    dsimp only at hop' hbytes hsome
    rw [transferred_snoc]
    refine ⟨hop', by dsimp only; omega, ?_⟩
    rcases hnext with ⟨hlast, hturn', rfl⟩ | ⟨hec, hne, hmore, hturn', rfl⟩
    · refine Or.inr ⟨tr, e, ?_, ?_, fun hec => ?_, hs.quiet, hs.length⟩
      · rw [transferred_snoc, hop']
      · rw [transferred_snoc, hturn', hop']
      · rw [transferred_snoc]
        dsimp only
        rw [hop'] at hlast
        rcases hlast with ⟨-, hzero⟩ | hne | hall
        · rcases hs.rest with hlt | ⟨hsize, rfl⟩
          · have hpos := bufferAt_pos hlt (by decide : 0 < checkForCompletion none)
            exact absurd (hsome hec hzero) hpos.ne'
          · rw [hzero, hsize]
            rfl
        · exact absurd hec hne
        · exact hall
    · rw [hop'] at hmore
      dsimp only at hmore
      refine Or.inl ⟨hturn', fun x hx => ?_, ?_, Or.inl ?_⟩
      · rcases List.mem_append.1 hx with hx | hx
        · exact hs.quiet x hx
        · rw [List.mem_singleton.1 hx]
          exact ⟨hec, rfl⟩
      · have hlength := hs.length
        rw [transferred_snoc, List.length_append, List.length_singleton]
        dsimp only
        omega
      · rw [transferred_snoc]
        dsimp only
        omega
  · rw [hover] at hturn
    cases hturn

/-- What an operation that goes on has asked for lies in the buffer, and is nothing only for an
empty one. -/
theorem Running.asked {size n : ℕ} {tr : List (Completion × Option (Option String × ℕ))}
    {s : Composed} (hs : Running size tr s) (hop : s.op = ⟨size, transferred tr⟩)
    (hle : transferred tr ≤ size) (hturn : s.turn = .some n) :
    transferred tr + n ≤ size ∧ (n = 0 → size = 0) := by
  have hstart := hturn.symm.trans hs.turn
  rw [hop, ComposedOp.start] at hstart
  dsimp only at hstart
  obtain rfl := Turn.some.inj hstart
  have hroom := bufferAt_le size (transferred tr) (checkForCompletion none)
  refine ⟨by omega, fun hzero => ?_⟩
  rcases hs.rest with hlt | ⟨hsize, -⟩
  · exact absurd hzero (bufferAt_pos hlt (by decide)).ne'
  · exact hsize

/-- What is allowed of the operation that is asked for can happen. -/
theorem exists_step_of_allowed {s : Composed} {n : ℕ} {e : Completion} (hturn : s.turn = .some n)
    (h : e.Allowed n) : ∃ s' o, s.step e = some (s', o) := by
  simp only [step, hturn, h, not_true_eq_false, if_false]
  rcases s.op.resume e.ec e.bytesTransferred with ⟨op, m | ⟨ec, total⟩⟩
  · exact ⟨_, _, rfl⟩
  · exact ⟨_, _, rfl⟩

/-- A composed operation whose parts succeed only with a byte at least asks for nothing
behind its buffer, calls its handler at most once, by its last completion and with its error
code, and with success only when the whole buffer has been transferred, and it ends after at
most one completion more than the buffer has bytes. While it goes on, it takes whatever
`async_read_some` makes of what `recv` returns, within the room `recv` is given. -/
theorem composed_of_run {size : ℕ} {tr : List (Completion × Option (Option String × ℕ))}
    {s : Composed} (h : (composed size).Run tr s) :
    transferred tr ≤ size ∧ tr.length ≤ size + 1 ∧
    (∀ n, s.turn = .some n → transferred tr + n ≤ size ∧ (n = 0 → size = 0) ∧
      (∀ x ∈ tr, x.1.ec = none ∧ x.2 = none) ∧
      ∀ results e, (∀ m, .bytes m ∈ results → m ≤ n) → readSome n results = some e →
        ∃ s' o, (composed size).step s e = some (s', o)) ∧
    ∀ ec total, s.turn = .handler ec total → total = transferred tr ∧
      (ec = none → transferred tr = size) ∧
      ∃ tr₁ e, tr = tr₁ ++ [(e, some (ec, total))] ∧ e.ec = ec ∧
        ∀ x ∈ tr₁, x.1.ec = none ∧ x.2 = none := by
  obtain ⟨hop, hle, hs⟩ := running_or_finished h
  refine ⟨hle, ?_, fun n hturn => ?_, fun ec total hturn => ?_⟩
  · rcases hs with hs | ⟨tr₁, e, htr, -, -, -, hlength⟩
    · exact (hs.length.trans hle).trans (Nat.le_succ _)
    · have hpart : transferred tr₁ ≤ transferred tr := by
        rw [htr, transferred_snoc]
        exact Nat.le_add_right _ _
      have hone := congrArg List.length htr
      rw [List.length_append, List.length_singleton] at hone
      omega
  · rcases hs with hs | ⟨tr₁, e, -, hover, -⟩
    · obtain ⟨hroom, hnone⟩ := hs.asked hop hle hturn
      exact ⟨hroom, hnone, hs.quiet, fun results e hresults hread =>
        exists_step_of_allowed hturn (allowed_of_readSome hresults hread)⟩
    · rw [hturn] at hover
      cases hover
  · rcases hs with hs | ⟨tr₁, e, htr, hover, hall, hquiet, -⟩
    · rw [hs.turn] at hturn
      cases hturn
    · rw [hover] at hturn
      obtain ⟨rfl, rfl⟩ := Turn.handler.inj hturn
      exact ⟨rfl, hall, tr₁, e, htr, rfl, hquiet⟩

/-- The operation goes on, and has transferred so many bytes. -/
def Filling (size : ℕ) (s : Composed) (count : ℕ) : Prop :=
  ∃ tr, (composed size).Run tr s ∧ Running size tr s ∧ transferred tr = count

theorem filling_init (size : ℕ) : Filling size (composed size).init 0 := by
  refine ⟨[], .nil, ⟨rfl, by simp, le_rfl, ?_⟩, rfl⟩
  rcases Nat.eq_zero_or_pos size with hzero | hpos
  · exact Or.inr ⟨hzero, rfl⟩
  · exact Or.inl hpos

/-- The operation has counted what it has transferred, which its buffer has room for. -/
theorem Filling.op_eq {size count : ℕ} {s : Composed} (hs : Filling size s count) :
    s.op = ⟨size, count⟩ ∧ count ≤ size := by
  obtain ⟨tr, hrun, -, rfl⟩ := hs
  obtain ⟨hop, hle, -⟩ := running_or_finished hrun
  exact ⟨hop, hle⟩

/-- A part that succeeds leaves the operation going on, or is the last and fills the
buffer. -/
theorem Filling.step {size count n : ℕ} {s s' : Composed} {o : Option (Option String × ℕ)}
    (hs : Filling size s count) (h : s.step ⟨none, n⟩ = some (s', o)) :
    (o = none ∧ 0 < n ∧ Filling size s' (count + n)) ∨
      (∃ call, o = some call) ∧ count + n = size := by
  obtain ⟨tr, hrun, -, rfl⟩ := hs
  have hstep : (composed size).step s ⟨none, n⟩ = some (s', o) := h
  obtain ⟨-, -, hs'⟩ := running_or_finished (hrun.snoc hstep)
  rcases hs' with hs' | ⟨tr₁, e, htr, -, hall, -⟩
  · obtain rfl : o = none :=
      (hs'.quiet _ (List.mem_append_right _ (List.mem_singleton_self _))).2
    obtain ⟨-, -, -, -, ⟨-, -, hcall⟩ | ⟨-, hne, -⟩⟩ := step_cases hstep
    · cases hcall
    · exact Or.inl ⟨rfl, Nat.pos_of_ne_zero hne, _, hrun.snoc hstep, hs', transferred_snoc _ _⟩
  · obtain ⟨-, hlast⟩ := List.append_inj' htr rfl
    obtain ⟨rfl, ho⟩ := Prod.mk.inj (List.singleton_inj.1 hlast)
    have hsize := hall rfl
    rw [transferred_snoc] at hsize
    exact Or.inr ⟨⟨_, ho⟩, hsize⟩

/-- What an operation that goes on has asked for can be transferred. -/
theorem Filling.exists_step {size count : ℕ} {s : Composed} (hs : Filling size s count) :
    ∃ n s' o, count + n ≤ size ∧ s.step ⟨none, n⟩ = some (s', o) := by
  obtain ⟨tr, hrun, hrunning, rfl⟩ := hs
  obtain ⟨hop, hle, -⟩ := running_or_finished hrun
  obtain ⟨n, hturn⟩ : ∃ n, s.turn = .some n := ⟨_, hrunning.turn⟩
  obtain ⟨s', o, hstep⟩ := exists_step_of_allowed (e := ⟨none, n⟩) hturn ⟨le_rfl, fun _ h => h⟩
  exact ⟨n, s', o, (hrunning.asked hop hle hturn).1, hstep⟩

end Composed

/-- The 30 bytes of a message in two parts : the handler is called once, by the second. -/
theorem composed_of_run_two_parts : ∃ tr s, (composed 30).Run tr s ∧
    tr.map Prod.snd = [none, some (none, 30)] ∧ Composed.transferred tr ≤ 30 ∧
    ∀ ec total, s.turn = .handler ec total → total = Composed.transferred tr := by
  have hrun := Machine.run_of_isSome (composed 30) [⟨none, 12⟩, ⟨none, 18⟩] (by decide +kernel)
  obtain ⟨hle, -, -, hover⟩ := Composed.composed_of_run hrun
  exact ⟨_, _, hrun, by decide +kernel, hle, fun ec total hturn => (hover ec total hturn).1⟩

/-! ## The writes of a socket -/

open AsyncWrite

/-- What can happen to the writes of a socket : one is started, or a part of the `k`-th
outstanding one is transferred. -/
inductive WriteEvent (β : Type*)
  | write (buffer : List β)
  | wrote (k n : ℕ)

/-- The writes of a `Socket`, with partial writes of any size. -/
def partialWrites (β : Type*) : Machine (Socket β) (WriteEvent β) Unit where
  init := Socket.new
  step s
    | .write buffer => some (s.asyncWrite buffer, ())
    | .wrote k n => (s.progress k n).map fun s' => (s', ())

/-- An `async_write` that is not over : its buffer and its composed operation. -/
structure WriteOp (β : Type*) where
  buffer : List β
  state : Composed

/-- A socket whose writes are composed operations. -/
structure Wire (β : Type*) where
  wire : List β
  outstanding : List (WriteOp β)

namespace Wire

variable {β : Type*}

/-- `async_write`. -/
def asyncWrite (s : Wire β) (buffer : List β) : Wire β :=
  { s with outstanding := s.outstanding ++ [⟨buffer, (composed buffer.length).init⟩] }

/-- An `async_write_some` of the `k`-th operation has put `n` elements on the wire. -/
def wrote (s : Wire β) (k n : ℕ) : Option (Wire β × Option (Option String × ℕ)) :=
  match s.outstanding[k]? with
  | none => none
  | some w =>
    let wire := s.wire ++ (w.buffer.drop w.state.op.totalTransferred).take n
    match w.state.step ⟨none, n⟩ with
    | none => none
    | some (state, none) => some (⟨wire, s.outstanding.set k ⟨w.buffer, state⟩⟩, none)
    | some (_, some call) => some (⟨wire, s.outstanding.eraseIdx k⟩, some call)

end Wire

/-- The composed writes of a socket, none of which fails, and the calls of their handlers. -/
def composedWrites (β : Type*) :
    Machine (Wire β) (WriteEvent β) (Option (Option String × ℕ)) where
  init := ⟨[], []⟩
  step s
    | .write buffer => some (s.asyncWrite buffer, none)
    | .wrote k n => s.wrote k n

namespace Wire

variable {β : Type*}

/-- What is left of an operation. -/
def rest (w : WriteOp β) : List β :=
  w.buffer.drop w.state.op.totalTransferred

/-- The socket as one with partial writes. -/
def socket (s : Wire β) : Socket β :=
  ⟨s.wire, s.outstanding.map rest⟩

/-- Every outstanding operation goes on. -/
def Going (s : Wire β) : Prop :=
  ∀ w ∈ s.outstanding, ∃ tr, (composed w.buffer.length).Run tr w.state ∧
    Composed.Running w.buffer.length tr w.state

/-- What a part of an operation that goes on leads to : the operation goes on with less left,
or nothing is left. -/
theorem part_cases {w : WriteOp β} {tr : List (Composed.Completion × Option (Option String × ℕ))}
    (hrun : (composed w.buffer.length).Run tr w.state) {n : ℕ} {state : Composed}
    {call : Option (Option String × ℕ)} (h : w.state.step ⟨none, n⟩ = some (state, call)) :
    n ≤ (rest w).length ∧
      ((call = none ∧ n ≠ (rest w).length ∧ rest ⟨w.buffer, state⟩ = (rest w).drop n ∧
        ∃ tr', (composed w.buffer.length).Run tr' state ∧
          Composed.Running w.buffer.length tr' state) ∨
      (call = some (none, w.buffer.length) ∧ n = (rest w).length)) := by
  have hstep : (composed w.buffer.length).step w.state ⟨none, n⟩ = some (state, call) := h
  obtain ⟨hop, hle, -⟩ := Composed.running_or_finished hrun
  obtain ⟨hop', hle', hs'⟩ := Composed.running_or_finished (hrun.snoc hstep)
  obtain ⟨m, hturn, -, -, hnext⟩ := Composed.step_cases hstep
  rw [Composed.transferred_snoc] at hop' hle'
  have hlength : (rest w).length = w.buffer.length - Composed.transferred tr := by
    rw [rest, hop, List.length_drop]
  dsimp only at hop' hle'
  refine ⟨by omega, ?_⟩
  rcases hnext with ⟨-, hover, rfl⟩ | ⟨-, -, hmore, hgoing, rfl⟩
  · rcases hs' with hs' | ⟨tr₁, e, htr, hlast, hall, -⟩
    · rw [hs'.turn] at hover
      cases hover
    · obtain ⟨hec, htotal⟩ := Turn.handler.inj (hlast.symm.trans hover)
      have hsize := hall hec
      rw [Composed.transferred_snoc] at hsize
      dsimp only at hsize
      refine Or.inr ⟨?_, by omega⟩
      rw [hop', hsize]
  · rcases hs' with hs' | ⟨tr₁, e, -, hlast, -⟩
    · rw [hop'] at hmore
      dsimp only at hmore
      refine Or.inl ⟨rfl, by omega, ?_, _, hrun.snoc hstep, hs'⟩
      rw [rest, rest, hop', hop, List.drop_drop]
    · rw [hgoing] at hlast
      cases hlast

/-- The handler of an operation is called by the part that leaves nothing of it, with
success and the size of its buffer. -/
def CallsLast (s : Wire β) (e : WriteEvent β) (o : Option (Option String × ℕ)) (_ : Wire β) :
    Prop :=
  ∀ k n w, e = .wrote k n → s.outstanding[k]? = some w →
    (o = none ∧ n < (rest w).length) ∨ (o = some (none, w.buffer.length) ∧ n = (rest w).length)

/-- A part of an operation that goes on is a partial write. -/
theorem progress_of_wrote {s s' : Wire β} {k n : ℕ} {o : Option (Option String × ℕ)}
    (hs : s.Going) (h : s.wrote k n = some (s', o)) :
    s'.Going ∧ s.socket.progress k n = some s'.socket ∧ s.CallsLast (.wrote k n) o s' := by
  cases hw : s.outstanding[k]? with
  | none => simp [wrote, hw] at h
  | some w =>
    obtain ⟨tr, hrun, hgoing⟩ := hs w (List.mem_of_getElem? hw)
    have hrest : s.socket.outstanding[k]? = some (rest w) := by
      rw [socket, List.getElem?_map, hw]
      rfl
    cases hstep : w.state.step ⟨none, n⟩ with
    | none => simp [wrote, hw, hstep] at h
    | some r =>
      obtain ⟨state, call⟩ := r
      have hcalls (hlast : (call = none ∧ n < (rest w).length) ∨
          (call = some (none, w.buffer.length) ∧ n = (rest w).length)) :
          s.CallsLast (.wrote k n) call s' := by
        intro k' n' w' he hw'
        obtain ⟨rfl, rfl⟩ := WriteEvent.wrote.inj he
        obtain rfl := Option.some.inj (hw.symm.trans hw')
        exact hlast
      obtain ⟨hle, ⟨rfl, hne, hstate, hnext⟩ | ⟨rfl, hn⟩⟩ := part_cases hrun hstep
      · obtain ⟨rfl, rfl⟩ : (⟨s.wire ++ (rest w).take n, s.outstanding.set k ⟨w.buffer, state⟩⟩ :
            Wire β) = s' ∧ none = o := by simpa [wrote, hw, hstep, rest] using h
        refine ⟨fun w' hw' => ?_, ?_, hcalls (Or.inl ⟨rfl, lt_of_le_of_ne hle hne⟩)⟩
        · rcases List.mem_or_eq_of_mem_set hw' with hw' | rfl
          · exact hs w' hw'
          · exact hnext
        · rw [Socket.progress, hrest]
          dsimp only
          rw [if_neg (not_lt.2 hle), if_neg hne, socket, socket, List.map_set, hstate]
      · obtain ⟨rfl, rfl⟩ : (⟨s.wire ++ (rest w).take n, s.outstanding.eraseIdx k⟩ : Wire β) = s' ∧
            some (none, w.buffer.length) = o := by simpa [wrote, hw, hstep, rest] using h
        refine ⟨fun w' hw' => hs w' (List.mem_of_mem_eraseIdx hw'), ?_, hcalls (Or.inr ⟨rfl, hn⟩)⟩
        rw [Socket.progress, hrest]
        dsimp only
        rw [if_neg (not_lt.2 hle), if_pos hn, socket, socket, List.eraseIdx_map]

/-- A write that is started goes on. -/
theorem going_asyncWrite {s : Wire β} (hs : s.Going) (buffer : List β) :
    (s.asyncWrite buffer).Going ∧
      (s.asyncWrite buffer).socket = s.socket.asyncWrite buffer := by
  constructor
  · intro w hw
    rcases List.mem_append.1 hw with hw | hw
    · exact hs w hw
    · rw [List.mem_singleton.1 hw]
      refine ⟨[], .nil, rfl, by simp, le_rfl, ?_⟩
      rcases Nat.eq_zero_or_pos buffer.length with hzero | hpos
      · exact Or.inr ⟨hzero, rfl⟩
      · exact Or.inl hpos
  · simp [asyncWrite, socket, Socket.asyncWrite, rest, composed]

end Wire

/-- A socket whose writes are composed operations, of which none fails, is a socket with
partial writes, and the handler of each write is called by the part that completes it. -/
theorem writes_refine {β : Type*} {tr : List (WriteEvent β × Option (Option String × ℕ))}
    {s : Wire β} (h : (composedWrites β).Run tr s) :
    (partialWrites β).Run (tr.map fun x => (x.1, ())) s.socket ∧
      (composedWrites β).Along Wire.CallsLast tr := by
  have hgoing : s.Going ∧ (partialWrites β).Run (tr.map fun x => (x.1, ())) s.socket ∧
      (composedWrites β).Along Wire.CallsLast tr := by
    induction h with
    | nil => exact ⟨by simp [Wire.Going, composedWrites], .nil, Machine.along_nil⟩
    | @snoc tr s s' e o hrun hstep ih =>
      obtain ⟨hs, hpartial, halong⟩ := ih
      rw [List.map_append, Machine.along_snoc hrun hstep]
      cases e with
      | write buffer =>
        obtain ⟨rfl, rfl⟩ : s.asyncWrite buffer = s' ∧ none = o := by
          simpa [composedWrites] using hstep
        obtain ⟨hs', hsocket⟩ := Wire.going_asyncWrite hs buffer
        refine ⟨hs', hpartial.snoc ?_, halong, fun k n w he => by cases he⟩
        rw [hsocket]
        rfl
      | wrote k n =>
        obtain ⟨hs', hprogress, hcalls⟩ := Wire.progress_of_wrote hs hstep
        refine ⟨hs', hpartial.snoc ?_, halong, hcalls⟩
        simp [partialWrites, hprogress]
  exact hgoing.2

/-- Two writes at once, in parts that alternate. -/
theorem writes_refine_two : ∃ tr s, (composedWrites ℕ).Run tr s ∧ s.wire = [1, 4, 5, 2, 3] ∧
    tr.map Prod.snd = [none, none, none, some (none, 2), some (none, 3)] ∧
    (partialWrites ℕ).Run (tr.map fun x => (x.1, ())) s.socket := by
  have hrun := Machine.run_of_isSome (composedWrites ℕ)
    [.write [1, 2, 3], .write [4, 5], .wrote 0 1, .wrote 1 2, .wrote 0 2] (by decide +kernel)
  exact ⟨_, _, hrun, by decide +kernel, by decide +kernel, (writes_refine hrun).1⟩

end Asio

end SpaceBattle
