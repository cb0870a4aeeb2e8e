import Mathlib.Data.List.TakeWhile
import Mathlib.Tactic.IntervalCases

/-!
# The C++ standard library, on bytes

A `std::string` is its list of bytes. `stoi` reads leading blanks, a sign and decimal
digits as `strtol` does and ignores what follows; it throws `invalid_argument` if there
is no digit and `out_of_range` if the number does not fit an `int`. `toString` is the
decimal numeral. `cstr` is the string a `const char *` denotes : the bytes of the memory
from an index up to the first NUL.

`stoi_padded` : a numeral below `2^31`, padded with zeros, reads back as its number.
`stoi_eq_ok_iff` : the texts `stoi` accepts, by their grammar (`IntText`).
-/

namespace Cpp

/-- A `std::string` : its bytes. -/
abbrev Str := List UInt8

/-- The bytes of a literal. -/
def lit (s : String) : Str :=
  s.toList.map Char.toUInt8

/-- The exceptions of the standard library and of the socket, with their texts. -/
inductive Exn
  | invalidArgument (what : String)
  | outOfRange (what : String)
  | systemError (what : String)
  deriving DecidableEq, Repr

/-- Why a call does not return : an exception leaves it, or it accesses an element that
is not there, or a member of an object that has been destroyed. -/
inductive Fault
  | thrown (e : Exn)
  | invalidAccess
  | destroyed
  deriving DecidableEq, Repr

/-- `v[i]`, and `*v.begin()` for `i = 0`. -/
def index {α : Type*} (v : List α) (i : ℕ) : Except Fault α :=
  match v[i]? with
  | some x => .ok x
  | none => .error .invalidAccess

@[simp] theorem index_cons_zero {α : Type*} (x : α) (v : List α) : index (x :: v) 0 = .ok x :=
  rfl

@[simp] theorem index_cons_succ {α : Type*} (x : α) (v : List α) (i : ℕ) :
    index (x :: v) (i + 1) = index v i :=
  rfl

@[simp] theorem ok_bind {ε α β : Type} (a : α) (f : α → Except ε β) :
    (Except.ok a >>= f) = f a :=
  rfl

@[simp] theorem error_bind {ε α β : Type} (e : ε) (f : α → Except ε β) :
    (Except.error e >>= f) = .error e :=
  rfl

theorem bind_eq_ok {ε α β : Type} {x : Except ε α} {f : α → Except ε β} {b : β} :
    (x >>= f) = .ok b ↔ ∃ a, x = .ok a ∧ f a = .ok b := by
  cases x with
  | error e => simp
  | ok a => simp

theorem map_eq_ok {ε α β : Type} {x : Except ε α} {f : α → β} {b : β} :
    x.map f = .ok b ↔ ∃ a, x = .ok a ∧ f a = b := by
  cases x <;> simp [Except.map]

/-! ## Integer conversions -/

/-- `int` to `std::size_t`. -/
def toSize (n : ℤ) : ℕ :=
  (n % 2 ^ 64).toNat

theorem ofInt_toNat_uint16 (c : UInt16) : UInt16.ofInt c.toNat = c := by
  have hc : ((c.toNat : ℤ) % 2 ^ 16).toNat = c.toNat := by
    have := c.toNat_lt_size
    simp only [UInt16.size] at this
    omega
  rw [UInt16.ofInt, hc, UInt16.ofNat_toNat]

theorem ofInt_toNat_uint32 (n : UInt32) : UInt32.ofInt n.toNat = n := by
  have hn : ((n.toNat : ℤ) % 2 ^ 32).toNat = n.toNat := by
    have := n.toNat_lt_size
    simp only [UInt32.size] at this
    omega
  rw [UInt32.ofInt, hn, UInt32.ofNat_toNat]

/-- Two integers are the same after a cast exactly if they are congruent. -/
theorem ofInt_int16_eq_iff (m n : ℤ) :
    Int16.ofInt m = Int16.ofInt n ↔ m % 2 ^ 16 = n % 2 ^ 16 := by
  rw [← Int16.toInt_inj, Int16.toInt_ofInt, Int16.toInt_ofInt]
  simp only [Int16.size, Int.bmod_def]
  omega

theorem ofInt_uint16_eq_iff (m n : ℤ) :
    UInt16.ofInt m = UInt16.ofInt n ↔ m % 2 ^ 16 = n % 2 ^ 16 := by
  rw [← UInt16.toNat_inj, UInt16.ofInt, UInt16.ofInt, UInt16.toNat_ofNat', UInt16.toNat_ofNat']
  omega

theorem ofInt_uint32_eq_iff (m n : ℤ) :
    UInt32.ofInt m = UInt32.ofInt n ↔ m % 2 ^ 32 = n % 2 ^ 32 := by
  rw [← UInt32.toNat_inj, UInt32.ofInt, UInt32.ofInt, UInt32.toNat_ofNat', UInt32.toNat_ofNat']
  omega

/-! ## Numerals -/

/-- The decimal numeral of a natural number. -/
def digits (n : ℕ) : Str :=
  (Nat.toDigits 10 n).map Char.toUInt8

/-- `std::to_string`. -/
def toString : ℤ → Str
  | .ofNat n => digits n
  | .negSucc n => 0x2D :: digits (n + 1)

@[simp] theorem toString_natCast (n : ℕ) : toString (n : ℤ) = digits n :=
  (rfl)

/-- `isspace` in the "C" locale. -/
def isSpace (c : UInt8) : Bool :=
  c = 0x20 ∨ (0x09 ≤ c ∧ c ≤ 0x0D)

def isDigit (c : UInt8) : Bool :=
  0x30 ≤ c ∧ c ≤ 0x39

/-- The number a list of digits denotes. -/
def number (ds : Str) : ℕ :=
  ds.foldl (fun n d => 10 * n + (d.toNat - 0x30)) 0

theorem number_append_singleton (ds : Str) (d : UInt8) :
    number (ds ++ [d]) = 10 * number ds + (d.toNat - 0x30) := by
  simp [number, List.foldl_append]

theorem number_replicate_zero (k : ℕ) (ds : Str) :
    number (List.replicate k 0x30 ++ ds) = number ds := by
  induction k with
  | zero => rfl
  | succ k ih => simpa [number, List.replicate_succ] using ih

theorem digits_of_lt {n : ℕ} (h : n < 10) : digits n = [(Nat.digitChar n).toUInt8] := by
  rw [digits, Nat.toDigits_of_lt_base h, List.map_singleton]

theorem digits_of_le {n : ℕ} (h : 10 ≤ n) :
    digits n = digits (n / 10) ++ [(Nat.digitChar (n % 10)).toUInt8] := by
  rw [digits, Nat.toDigits_of_base_le (by decide) h, List.map_append, List.map_singleton]
  rfl

theorem digit_spec {k : ℕ} (h : k < 10) : isDigit (Nat.digitChar k).toUInt8 ∧
    (Nat.digitChar k).toUInt8.toNat - 0x30 = k := by
  interval_cases k <;> decide

/-- A property of numerals, by their last digit. -/
theorem digits_induction {P : ℕ → Prop} (hlt : ∀ n < 10, P n)
    (hle : ∀ n, 10 ≤ n → P (n / 10) → P n) (n : ℕ) : P n := by
  induction n using Nat.strongRecOn with
  | ind n ih =>
    rcases Nat.lt_or_ge n 10 with h | h
    · exact hlt n h
    · exact hle n h (ih (n / 10) (by omega))

@[simp] theorem number_digits (n : ℕ) : number (digits n) = n := by
  induction n using digits_induction with
  | hlt n h =>
    rw [digits_of_lt h]
    simpa [number] using (digit_spec h).2
  | hle n h ih =>
    rw [digits_of_le h, number_append_singleton, ih, (digit_spec (Nat.mod_lt n (by decide))).2]
    omega

theorem isDigit_of_mem_digits {n : ℕ} {c : UInt8} (hc : c ∈ digits n) : isDigit c := by
  induction n using digits_induction with
  | hlt n h =>
    rw [digits_of_lt h, List.mem_singleton] at hc
    exact hc ▸ (digit_spec h).1
  | hle n h ih =>
    rw [digits_of_le h] at hc
    rcases List.mem_append.1 hc with hc | hc
    · exact ih hc
    · rw [List.mem_singleton.1 hc]
      exact (digit_spec (Nat.mod_lt n (by decide))).1

theorem digits_ne_nil (n : ℕ) : digits n ≠ [] := by
  simp [digits]

theorem length_digits_le_iff {n k : ℕ} (hk : 0 < k) : (digits n).length ≤ k ↔ n < 10 ^ k := by
  rw [digits, List.length_map, Nat.length_toDigits_le_iff (by decide) hk]

theorem isDigit_ne_zero {c : UInt8} (h : isDigit c) : c ≠ 0 := by
  rintro rfl
  exact absurd h (by decide)

theorem zero_notMem_digits (n : ℕ) : 0 ∉ digits n := fun h =>
  isDigit_ne_zero (isDigit_of_mem_digits h) rfl

/-! ## `stoi` -/

/-- The sign and what follows it. -/
def splitSign : Str → Bool × Str
  | 0x2D :: s => (true, s)
  | 0x2B :: s => (false, s)
  | s => (false, s)

/-- `strtol` in base 10, `none` if no conversion could be performed. -/
def strtol (s : Str) : Option ℤ :=
  let (negative, rest) := splitSign (s.dropWhile isSpace)
  let ds := rest.takeWhile isDigit
  if ds = [] then none else some (if negative then -(number ds : ℤ) else number ds)

/-- The values of an `int`. -/
def IsInt (n : ℤ) : Prop :=
  -2 ^ 31 ≤ n ∧ n < 2 ^ 31

instance (n : ℤ) : Decidable (IsInt n) :=
  inferInstanceAs (Decidable (_ ∧ _))

/-- `std::stoi`. -/
def stoi (s : Str) : Except Exn ℤ :=
  match strtol s with
  | none => .error (.invalidArgument "stoi")
  | some n => if IsInt n then .ok n else .error (.outOfRange "stoi")

/-- `try { n = stoi(s); body } catch (out_of_range) { handler } catch (invalid_argument)
{ handler }`, for a body that throws neither. -/
def tryStoi {α : Type*} (s : Str) (handler : α) (body : ℤ → Except Fault α) :
    Except Fault α :=
  match stoi s with
  | .ok n => body n
  | .error (.outOfRange _) => .ok handler
  | .error (.invalidArgument _) => .ok handler
  | .error e => .error (.thrown e)

theorem stoi_error {s : Str} {e : Exn} (h : stoi s = .error e) :
    e = .invalidArgument "stoi" ∨ e = .outOfRange "stoi" := by
  unfold stoi at h
  cases hs : strtol s with
  | none => simp_all
  | some n =>
    simp only [hs] at h
    split at h
    · cases h
    · exact Or.inr (Except.error.inj h).symm

theorem tryStoi_ok {α : Type*} {s : Str} {n : ℤ} (h : stoi s = .ok n) (handler : α)
    (body : ℤ → Except Fault α) : tryStoi s handler body = body n := by
  simp [tryStoi, h]

/-- Both exceptions of `stoi` are caught. -/
theorem tryStoi_error {α : Type*} {s : Str} {e : Exn} (h : stoi s = .error e) (handler : α)
    (body : ℤ → Except Fault α) : tryStoi s handler body = .ok handler := by
  rcases stoi_error h with rfl | rfl <;> simp [tryStoi, h]

/-! ## The texts `stoi` accepts -/

/-- The text denotes the integer : blanks, an optional sign, digits, and then anything
that does not begin with a digit. -/
def IntText (s : Str) (n : ℤ) : Prop :=
  ∃ ws sg ds rest, s = ws ++ (sg ++ (ds ++ rest)) ∧ (∀ c ∈ ws, isSpace c) ∧
    (sg = [] ∨ sg = [0x2B] ∨ sg = [0x2D]) ∧ ds ≠ [] ∧ (∀ c ∈ ds, isDigit c) ∧
    (∀ c ∈ rest.head?, ¬isDigit c) ∧ n = if sg = [0x2D] then -(number ds : ℤ) else number ds

theorem isDigit_not_isSpace {c : UInt8} (h : isDigit c) : ¬isSpace c := by
  simp only [isSpace, isDigit, decide_eq_true_eq, UInt8.le_iff_toNat_le] at h ⊢
  rintro (rfl | hs)
  · exact absurd h (by decide)
  · exact absurd (h.1.trans hs.2) (by decide)

theorem splitSign_of_digit {c : UInt8} (h : isDigit c) (s : Str) :
    splitSign (c :: s) = (false, c :: s) := by
  have hminus : c ≠ 0x2D := by rintro rfl; exact absurd h (by decide)
  have hplus : c ≠ 0x2B := by rintro rfl; exact absurd h (by decide)
  unfold splitSign
  split <;> simp_all

theorem IntText.strtol {s : Str} {n : ℤ} (h : IntText s n) : strtol s = some n := by
  obtain ⟨ws, sg, ds, rest, rfl, hws, hsg, hne, hds, hrest, rfl⟩ := h
  have htake : (ds ++ rest).takeWhile isDigit = ds := by
    rw [List.takeWhile_append_of_pos hds]
    cases rest with
    | nil => simp
    | cons c rest => simp [hrest c (by simp)]
  obtain ⟨d, ds, rfl⟩ := List.exists_cons_of_ne_nil hne
  have hd := hds d (by simp)
  have hsplit : splitSign ((sg ++ (d :: ds ++ rest)).dropWhile isSpace) =
      (decide (sg = [0x2D]), d :: ds ++ rest) := by
    rcases hsg with rfl | rfl | rfl
    · simpa [isDigit_not_isSpace hd] using splitSign_of_digit hd (ds ++ rest)
    · rfl
    · rfl
  simp only [Cpp.strtol, List.dropWhile_append_of_pos hws, hsplit, htake]
  simp

theorem IntText.of_strtol {s : Str} {n : ℤ} (h : Cpp.strtol s = some n) : IntText s n := by
  have hsplit : ∃ sg, (sg = [] ∨ sg = [0x2B] ∨ sg = [0x2D]) ∧
      s.dropWhile isSpace = sg ++ (splitSign (s.dropWhile isSpace)).2 ∧
      (splitSign (s.dropWhile isSpace)).1 = decide (sg = [0x2D]) := by
    generalize s.dropWhile isSpace = t
    unfold splitSign
    split
    · exact ⟨[0x2D], by simp, rfl, rfl⟩
    · exact ⟨[0x2B], by simp, rfl, rfl⟩
    · exact ⟨[], by simp, rfl, rfl⟩
  obtain ⟨sg, hsg, hs, hneg⟩ := hsplit
  simp only [Cpp.strtol, Option.ite_none_left_eq_some, Option.some.injEq] at h
  obtain ⟨hne, rfl⟩ := h
  refine ⟨s.takeWhile isSpace, sg, _, (splitSign (s.dropWhile isSpace)).2.dropWhile isDigit, ?_,
    fun c => List.mem_takeWhile_imp, hsg, hne, fun c => List.mem_takeWhile_imp, ?_, ?_⟩
  · rw [List.takeWhile_append_dropWhile, ← hs, List.takeWhile_append_dropWhile]
  · intro c hc
    have := List.head?_dropWhile_not isDigit (splitSign (s.dropWhile isSpace)).2
    rw [Option.mem_def.1 hc] at this
    simpa using this
  · simp [hneg]

/-- `stoi` accepts exactly the texts of the integers an `int` can hold. -/
theorem stoi_eq_ok_iff {s : Str} {n : ℤ} : stoi s = .ok n ↔ IntText s n ∧ IsInt n := by
  unfold stoi
  refine ⟨fun h => ?_, fun ⟨ht, hn⟩ => by simp [ht.strtol, hn]⟩
  cases hs : strtol s with
  | none => simp [hs] at h
  | some m =>
    simp only [hs] at h
    split at h
    · obtain rfl := Except.ok.inj h
      exact ⟨.of_strtol hs, ‹_›⟩
    · cases h

/-- A zero-padded numeral denotes its number. -/
theorem intText_padded (k n : ℕ) : IntText (List.replicate k 0x30 ++ digits n) n := by
  refine ⟨[], [], List.replicate k 0x30 ++ digits n, [], by simp, by simp, Or.inl rfl,
    by simp [digits_ne_nil], fun c hc => ?_, by simp, by simp [number_replicate_zero]⟩
  rcases List.mem_append.1 hc with hc | hc
  · rw [(List.mem_replicate.1 hc).2]
    decide
  · exact isDigit_of_mem_digits hc

/-- A zero-padded numeral below `2^31` reads back as its number. -/
theorem stoi_padded (k : ℕ) {n : ℕ} (h : n < 2 ^ 31) :
    stoi (List.replicate k 0x30 ++ digits n) = .ok (n : ℤ) :=
  stoi_eq_ok_iff.2 ⟨intText_padded k n, by omega, by exact_mod_cast h⟩

theorem stoi_digits {n : ℕ} (h : n < 2 ^ 31) : stoi (digits n) = .ok (n : ℤ) :=
  stoi_padded 0 h

/-- A numeral with a minus reads back as the negative number. -/
theorem stoi_minus {n : ℕ} (h : n ≤ 2 ^ 31) : stoi (0x2D :: digits n) = .ok (-n : ℤ) :=
  stoi_eq_ok_iff.2 ⟨⟨[], [0x2D], digits n, [], by simp, by simp, by simp, digits_ne_nil n,
    fun _ hc => isDigit_of_mem_digits hc, by simp, by simp⟩, by omega, by omega⟩

/-- Zeros before a minus hide the number : the text denotes zero. -/
theorem stoi_zeros_minus (k : ℕ) (s : Str) :
    stoi (List.replicate (k + 1) 0x30 ++ 0x2D :: s) = .ok 0 := by
  refine stoi_eq_ok_iff.2 ⟨⟨[], [], List.replicate (k + 1) 0x30, 0x2D :: s, by simp, by simp,
    Or.inl rfl, by simp, fun c hc => ?_, by simp [isDigit], ?_⟩, by decide, by decide⟩
  · rw [(List.mem_replicate.1 hc).2]
    decide
  · have hzero : number (List.replicate (k + 1) 0x30) = 0 := by
      rw [← List.append_nil (List.replicate (k + 1) 0x30), number_replicate_zero]
      rfl
    simp [hzero]

/-- A zero-padded numeral that `stoi` accepts is below `2^31`. -/
theorem lt_of_stoi_padded {k n : ℕ} {m : ℤ}
    (h : stoi (List.replicate k 0x30 ++ digits n) = .ok m) : n < 2 ^ 31 := by
  obtain ⟨htext, hint⟩ := stoi_eq_ok_iff.1 h
  have hm : m = n := Option.some.inj (htext.strtol.symm.trans (intText_padded k n).strtol)
  have hlt := hint.2
  omega

/-! ## C strings and allocations -/

/-- The string at index `i` of the memory : its bytes up to the first NUL. -/
def cstr (mem : List UInt8) (i : ℕ) : Str :=
  (mem.drop i).takeWhile (· ≠ 0)

/-- A NUL-free string followed by a NUL is read back. -/
theorem cstr_append (pre : List UInt8) {s : Str} (hs : 0 ∉ s) (post : List UInt8) :
    cstr (pre ++ (s ++ 0 :: post)) pre.length = s := by
  have hall : ∀ c ∈ s, decide (c ≠ 0) = true := fun c hc =>
    decide_eq_true fun h0 => hs (h0 ▸ hc)
  rw [cstr, List.drop_left, List.takeWhile_append_of_pos hall]
  simp

/-- A string that ends inside the buffer is read back, whatever follows the buffer. -/
theorem cstr_closed (pre : List UInt8) {s : Str} (hs : 0 ∉ s) (w beyond : List UInt8) :
    cstr (pre ++ ((s ++ 0 :: w) ++ beyond)) pre.length = s := by
  rw [List.append_assoc, List.cons_append]
  exact cstr_append pre hs _

theorem zero_notMem_cstr (mem : List UInt8) (i : ℕ) : 0 ∉ cstr mem i := by
  intro h
  simpa using List.mem_takeWhile_imp h

/-- A NUL-free end of the buffer is read to its end at least. -/
theorem length_le_cstr (pre : List UInt8) {s : Str} (hs : 0 ∉ s) (beyond : List UInt8) :
    s.length ≤ (cstr (pre ++ (s ++ beyond)) pre.length).length := by
  have hall : ∀ c ∈ s, decide (c ≠ 0) = true := fun c hc =>
    decide_eq_true fun h0 => hs (h0 ▸ hc)
  rw [cstr, List.drop_left, List.takeWhile_append_of_pos hall, List.length_append]
  exact Nat.le_add_right _ _

/-- A property of buffers, by their first NUL. -/
theorem nul_induction {P : List UInt8 → Prop} (open_ : ∀ w, 0 ∉ w → P w)
    (closed : ∀ s w, 0 ∉ s → P w → P (s ++ 0 :: w)) (w : List UInt8) : P w := by
  induction hlen : w.length using Nat.strongRecOn generalizing w with
  | ind n ih =>
    by_cases hzero : 0 ∈ w
    · obtain ⟨s, w', rfl, hs⟩ := List.eq_append_cons_of_mem hzero
      rw [List.length_append, List.length_cons] at hlen
      exact closed s w' hs (ih w'.length (by omega) w' rfl)
    · exact open_ w hzero

theorem forall_getLast?_of_notMem {w : List UInt8} (h : 0 ∉ w) :
    (∀ b ∈ w.getLast?, b = 0) ↔ w = [] := by
  cases hlast : w.getLast? with
  | none => simpa using hlast
  | some b =>
    have hb : b ≠ 0 := fun h0 => h (h0 ▸ List.mem_of_getLast? hlast)
    have hne : w ≠ [] := by
      rintro rfl
      simp at hlast
    simp [hb, hne]

theorem forall_getLast?_closed (s w : List UInt8) :
    (∀ b ∈ (s ++ 0 :: w).getLast?, b = 0) ↔ ∀ b ∈ w.getLast?, b = 0 := by
  cases w <;> simp

/-- The indices read to find the string at `i` : its bytes, and where it ends. -/
def cstrReads (mem : List UInt8) (i : ℕ) : List ℕ :=
  List.range' i ((cstr mem i).length + 1)

@[simp] theorem length_cstrReads (mem : List UInt8) (i : ℕ) :
    (cstrReads mem i).length = (cstr mem i).length + 1 :=
  List.length_range'

theorem mem_cstrReads {mem : List UInt8} {i j : ℕ} :
    j ∈ cstrReads mem i ↔ i ≤ j ∧ j ≤ i + (cstr mem i).length := by
  rw [cstrReads, List.mem_range'_1]
  omega

/-- A string is read inside the buffer exactly if there is a NUL left in it. -/
theorem forall_cstrReads_lt_iff (pre w beyond : List UInt8) :
    (∀ j ∈ cstrReads (pre ++ (w ++ beyond)) pre.length, j < pre.length + w.length) ↔ 0 ∈ w := by
  have hiff : (∀ j ∈ cstrReads (pre ++ (w ++ beyond)) pre.length, j < pre.length + w.length) ↔
      (cstr (pre ++ (w ++ beyond)) pre.length).length < w.length := by
    simp only [mem_cstrReads]
    exact ⟨fun h => by simpa using h _ ⟨Nat.le_add_right _ _, le_rfl⟩, fun h j hj => by omega⟩
  rw [hiff]
  by_cases hzero : 0 ∈ w
  · obtain ⟨s, w', rfl, hs⟩ := List.eq_append_cons_of_mem hzero
    rw [cstr_closed pre hs, List.length_append, List.length_cons]
    exact iff_of_true (by omega) hzero
  · exact iff_of_false (length_le_cstr pre hzero beyond).not_gt hzero

theorem takeWhile_congr {p : UInt8 → Bool} : ∀ w w' : List UInt8,
    (∀ k ≤ (w.takeWhile p).length, w[k]? = w'[k]?) → w'.takeWhile p = w.takeWhile p
  | [], w', h => by
    have hnil : w' = [] := by simpa using (h 0 (Nat.zero_le _)).symm
    rw [hnil]
  | x :: w, [], h => by simpa using h 0 (Nat.zero_le _)
  | x :: w, y :: w', h => by
    obtain rfl : x = y := by simpa using h 0 (Nat.zero_le _)
    by_cases hx : p x
    · have htail : w'.takeWhile p = w.takeWhile p := takeWhile_congr w w' fun k hk => by
        simpa using h (k + 1) (by simpa [hx] using hk)
      simp [hx, htail]
    · simp [hx]

/-- The string depends on nothing but the bytes read. -/
theorem cstr_congr {mem mem' : List UInt8} {i : ℕ}
    (h : ∀ j ∈ cstrReads mem i, mem[j]? = mem'[j]?) : cstr mem' i = cstr mem i :=
  takeWhile_congr _ _ fun k hk => by
    rw [List.getElem?_drop, List.getElem?_drop]
    exact h (i + k) (mem_cstrReads.2 ⟨Nat.le_add_right _ _, Nat.add_le_add_left hk _⟩)

/-- A string that ends in the part where two memories agree is the same in both. -/
theorem cstr_eq_of_lt {mem mem' : List UInt8} {n idx : ℕ} (h : ∀ j < n, mem[j]? = mem'[j]?)
    (hlt : idx + (cstr mem idx).length < n) : cstr mem' idx = cstr mem idx :=
  cstr_congr fun j hj => h j (by rw [mem_cstrReads] at hj; omega)

/-- `new char[n]` : `n` bytes of whatever the heap holds. -/
def newChars (heap : ℕ → UInt8) (n : ℕ) : List UInt8 :=
  (List.range n).map heap

@[simp] theorem length_newChars (heap : ℕ → UInt8) (n : ℕ) : (newChars heap n).length = n := by
  simp [newChars]

end Cpp
