import SpaceBattle.HeaderTexts

/-!
# What decoding reads

The scans bound the start of a string and leave its end to the first NUL, so what they
read is a matter of the bytes received. `Body.reads` and `Header.reads` are the indices
read, in order; decoding depends on nothing else (`Body.ofBuffer_congr`,
`Header.ofBuffer_congr`).

A body is read inside its buffer if it is empty or its last byte is a NUL
(`body_inside_iff`), a header if its last byte is, or if there are as many NULs as texts
the decoder gets to (`header_inside_iff`). Otherwise the memory behind the buffer is read.
-/

namespace SpaceBattle

open Cpp

/-! ## Bodies -/

namespace Body

/-- The indices the loop of `Body(const char *, std::size_t)` reads from index `i` on. -/
def readsFrom (mem : List UInt8) (bufferLength i : ℕ) : List ℕ :=
  if i < bufferLength then
    cstrReads mem i ++ readsFrom mem bufferLength (i + ((cstr mem i).length + 1))
  else []
termination_by bufferLength - i

/-- The indices `Body(const char *, std::size_t)` reads. -/
def reads (mem : List UInt8) (bufferLength : ℕ) : List ℕ :=
  readsFrom mem bufferLength 0

theorem readsFrom_of_lt {mem : List UInt8} {bufferLength i : ℕ} (h : i < bufferLength) :
    readsFrom mem bufferLength i =
      cstrReads mem i ++ readsFrom mem bufferLength (i + ((cstr mem i).length + 1)) := by
  rw [readsFrom, if_pos h]

theorem length_readsFrom_of_lt {mem : List UInt8} {bufferLength i : ℕ} (h : i < bufferLength) :
    (readsFrom mem bufferLength i).length = ((cstr mem i).length + 1) +
      (readsFrom mem bufferLength (i + ((cstr mem i).length + 1))).length := by
  rw [readsFrom_of_lt h, List.length_append, length_cstrReads]

theorem readsFrom_of_le {mem : List UInt8} {bufferLength i : ℕ} (h : bufferLength ≤ i) :
    readsFrom mem bufferLength i = [] := by
  rw [readsFrom, if_neg (by omega)]

/-- The scan reads on without a gap. -/
theorem readsFrom_eq (mem : List UInt8) (bufferLength i : ℕ) :
    readsFrom mem bufferLength i = List.range' i (readsFrom mem bufferLength i).length := by
  fun_induction readsFrom mem bufferLength i with
  | case1 i _ ih =>
    rw [List.length_append, length_cstrReads, ← List.range'_append_1, ← ih, cstrReads]
  | case2 => rfl

theorem bodyLength_ofBufferFrom (mem : List UInt8) (bufferLength i : ℕ) (b : Body) :
    (ofBufferFrom mem bufferLength i b).bodyLength =
      b.bodyLength + (readsFrom mem bufferLength i).length := by
  fun_induction ofBufferFrom mem bufferLength i b with
  | case1 i b hlt str ih =>
    rw [ih, length_readsFrom_of_lt hlt, pushBack]
    exact Nat.add_assoc _ _ _
  | case2 i b hle => rw [readsFrom_of_le (by omega), List.length_nil, Nat.add_zero]

/-- The scan reads what is left of the buffer, at least. -/
theorem le_length_readsFrom (mem : List UInt8) (bufferLength i : ℕ) :
    bufferLength - i ≤ (readsFrom mem bufferLength i).length := by
  fun_induction readsFrom mem bufferLength i with
  | case1 i _ ih =>
    rw [List.length_append, length_cstrReads]
    omega
  | case2 => omega

/-- A body is no shorter than its buffer, which may end inside a string. -/
theorem le_size_ofBuffer (mem : List UInt8) (bufferLength : ℕ) :
    bufferLength ≤ (ofBuffer mem bufferLength).size := by
  have hreads := le_length_readsFrom mem bufferLength 0
  rw [size, ofBuffer, bodyLength_ofBufferFrom]
  omega

/-- A body's size is the number of bytes read. -/
theorem reads_eq (mem : List UInt8) (bufferLength : ℕ) :
    reads mem bufferLength = List.range' 0 (ofBuffer mem bufferLength).size := by
  rw [size, ofBuffer, bodyLength_ofBufferFrom, reads, readsFrom_eq, List.length_range']
  exact congrArg (List.range' 0) (Nat.zero_add _).symm

theorem ofBufferFrom_congr {mem mem' : List UInt8} {bufferLength i : ℕ} {b : Body}
    (h : ∀ j ∈ readsFrom mem bufferLength i, mem[j]? = mem'[j]?) :
    ofBufferFrom mem' bufferLength i b = ofBufferFrom mem bufferLength i b := by
  fun_induction ofBufferFrom mem bufferLength i b with
  | case1 i b hlt str ih =>
    rw [readsFrom_of_lt hlt] at h
    have hstr : cstr mem' i = cstr mem i :=
      cstr_congr fun j hj => h j (List.mem_append_left _ hj)
    rw [ofBufferFrom_of_lt hlt, hstr]
    exact ih fun j hj => h j (List.mem_append_right _ hj)
  | case2 i b hle => exact ofBufferFrom_of_le (by omega)

/-- The body depends on nothing but the bytes read. -/
theorem ofBuffer_congr {mem mem' : List UInt8} {bufferLength : ℕ}
    (h : ∀ j ∈ reads mem bufferLength, mem[j]? = mem'[j]?) :
    ofBuffer mem' bufferLength = ofBuffer mem bufferLength :=
  ofBufferFrom_congr h

/-- After a string that ends inside the buffer, the scan goes on behind its NUL. -/
theorem length_readsFrom_closed (pre : List UInt8) {s : Str} (hs : 0 ∉ s)
    (w beyond : List UInt8) :
    (readsFrom (pre ++ ((s ++ 0 :: w) ++ beyond)) (pre.length + (s ++ 0 :: w).length)
      pre.length).length = (s.length + 1) +
        (readsFrom ((pre ++ (s ++ [0])) ++ (w ++ beyond)) ((pre ++ (s ++ [0])).length + w.length)
          (pre ++ (s ++ [0])).length).length := by
  have hmem : pre ++ ((s ++ 0 :: w) ++ beyond) = (pre ++ (s ++ [0])) ++ (w ++ beyond) := by simp
  have hnext : pre.length + (s.length + 1) = (pre ++ (s ++ [0])).length := by simp
  have hend : pre.length + (s ++ 0 :: w).length = (pre ++ (s ++ [0])).length + w.length := by
    rw [← hnext, List.length_append, List.length_cons]
    omega
  rw [← hmem, ← hend, ← hnext, length_readsFrom_of_lt (by simp),
    cstr_closed pre hs]

/-- From the start of a string, the scan reads at least what is left of the buffer, and
no more if that is nothing or ends with a NUL. -/
theorem length_readsFrom (beyond pre w : List UInt8) :
    w.length ≤ (readsFrom (pre ++ (w ++ beyond)) (pre.length + w.length) pre.length).length ∧
      ((readsFrom (pre ++ (w ++ beyond)) (pre.length + w.length) pre.length).length = w.length ↔
        ∀ b ∈ w.getLast?, b = 0) := by
  induction w using nul_induction generalizing pre with
  | open_ w hzero =>
    rcases eq_or_ne w [] with rfl | hne
    · rw [readsFrom_of_le (by simp)]
      simp
    have hpos := List.length_pos_iff.2 hne
    have hlong := length_le_cstr pre hzero beyond
    rw [length_readsFrom_of_lt (by omega), forall_getLast?_of_notMem hzero]
    exact ⟨by omega, iff_of_false (by omega) hne⟩
  | closed s w' hs ih =>
    have hlength : (s ++ 0 :: w').length = (s.length + 1) + w'.length := by
      rw [List.length_append, List.length_cons]
      omega
    obtain ⟨hle, hiff⟩ := ih (pre ++ (s ++ [0]))
    rw [length_readsFrom_closed pre hs, forall_getLast?_closed, ← hiff, hlength]
    omega

end Body

/-- A body is read inside its buffer, and its size is the buffer's if the last byte is a
NUL and no more otherwise, if and only if it is empty or its last byte is a NUL. -/
theorem body_inside_iff (bytes beyond : List UInt8) :
    ((∀ j ∈ Body.reads (bytes ++ beyond) bytes.length, j < bytes.length) ∧
      (bytes.getLast? = some 0 →
        (Body.ofBuffer (bytes ++ beyond) bytes.length).size = bytes.length) ∧
      (Body.ofBuffer (bytes ++ beyond) bytes.length).size ≤ bytes.length) ↔
        ∀ b ∈ bytes.getLast?, b = 0 := by
  obtain ⟨hle, hiff⟩ := Body.length_readsFrom beyond [] bytes
  have hsize : (Body.ofBuffer (bytes ++ beyond) bytes.length).size =
      (Body.readsFrom (bytes ++ beyond) bytes.length 0).length := by
    rw [Body.size, Body.ofBuffer, Body.bodyLength_ofBufferFrom]
    exact Nat.zero_add _
  rw [List.nil_append, List.length_nil, Nat.zero_add, ← hsize] at hle hiff
  rw [Body.reads_eq, ← hiff]
  constructor
  · rintro ⟨-, -, hmost⟩
    exact le_antisymm hmost hle
  · intro heq
    refine ⟨fun j hj => ?_, fun _ => heq, heq.le⟩
    rw [List.mem_range'_1] at hj
    omega

/-- A body of one letter, and what the memory holds after it. -/
theorem body_reads_beyond :
    ¬((∀ j ∈ Body.reads ([0x61] ++ [0x62, 0]) [0x61].length, j < [0x61].length) ∧
    ([0x61].getLast? = some (0 : UInt8) →
      (Body.ofBuffer ([0x61] ++ [0x62, 0]) [0x61].length).size = [0x61].length) ∧
    (Body.ofBuffer ([0x61] ++ [0x62, 0]) [0x61].length).size ≤ [0x61].length) := by
  rintro ⟨hinside, -⟩
  have hone := hinside 1
  rw [Body.reads_eq] at hone
  revert hone
  decide +kernel

/-! ## Headers -/

namespace Header

/-- The indices a `fill_` function reads. -/
def fieldReads (mem : List UInt8) (bufferLength idx : ℕ) : List ℕ :=
  if bufferLength ≤ idx then [] else cstrReads mem idx

/-- What is read after a field, unless it throws. -/
def readsAfter {α : Type} (filled : Except Exn (α × ℕ)) (next : ℕ → List ℕ) : List ℕ :=
  match filled with
  | .error _ => []
  | .ok (_, idx) => next idx

/-- The indices the buffer constructors read. -/
def reads (default : Header) (mem : List UInt8) (bufferLength : ℕ) : List ℕ :=
  if 0 < bufferLength then
    0 :: (fieldReads mem bufferLength 2 ++
      readsAfter (fillField readRevision mem bufferLength default.revision 2) fun idx =>
        fieldReads mem bufferLength idx ++
          readsAfter (fillField readCode mem bufferLength default.code idx) fun idx =>
            fieldReads mem bufferLength idx)
  else []

theorem readsAfter_nil {α : Type} (filled : Except Exn (α × ℕ)) :
    readsAfter filled (fun _ => []) = [] := by
  cases filled <;> rfl

theorem fillField_congr {α : Type} {read : Str → Except Exn α} {mem mem' : List UInt8}
    {bufferLength idx : ℕ} {old : α}
    (h : ∀ j ∈ fieldReads mem bufferLength idx, mem[j]? = mem'[j]?) :
    fillField read mem' bufferLength old idx = fillField read mem bufferLength old idx := by
  unfold fillField
  unfold fieldReads at h
  split
  · rfl
  · rename_i hlt
    rw [if_neg hlt] at h
    rw [cstr_congr h]

/-- A field and what is decoded after it. -/
theorem bind_fillField_congr {α β : Type} {read : Str → Except Exn α} {mem mem' : List UInt8}
    {bufferLength idx : ℕ} {old : α} {next next' : α × ℕ → Except Exn β} {rest : ℕ → List ℕ}
    (h : ∀ j ∈ fieldReads mem bufferLength idx ++
      readsAfter (fillField read mem bufferLength old idx) rest, mem[j]? = mem'[j]?)
    (hnext : ∀ value idx, (∀ j ∈ rest idx, mem[j]? = mem'[j]?) →
      next' (value, idx) = next (value, idx)) :
    (fillField read mem' bufferLength old idx >>= next') =
      (fillField read mem bufferLength old idx >>= next) := by
  obtain ⟨hfield, hrest⟩ := List.forall_mem_append.1 h
  rw [fillField_congr hfield]
  cases hfilled : fillField read mem bufferLength old idx with
  | error e => rfl
  | ok filled =>
    rw [hfilled] at hrest
    exact hnext filled.1 filled.2 hrest

/-- The header depends on nothing but the bytes read. -/
theorem ofBuffer_congr {default : Header} {mem mem' : List UInt8} {bufferLength : ℕ}
    (h : ∀ j ∈ reads default mem bufferLength, mem[j]? = mem'[j]?) :
    ofBuffer default mem' bufferLength = ofBuffer default mem bufferLength := by
  rw [reads] at h
  rw [ofBuffer, ofBuffer]
  split
  · rename_i hpos
    rw [if_pos hpos, List.forall_mem_cons] at h
    obtain ⟨hmagic, hfields⟩ := h
    refine bind_fillField_congr hfields fun revision idx hfields => ?_
    refine bind_fillField_congr hfields fun code idx hfield => ?_
    dsimp only
    rw [fillField_congr hfield, List.headD_eq_head?_getD, List.headD_eq_head?_getD,
      List.head?_eq_getElem?, List.head?_eq_getElem?, hmagic]
  · rfl

/-! ### Texts that end inside the buffer -/

/-- The texts, from the start of the bytes, that end with a NUL among them. -/
def endedTexts (bytes : List UInt8) : List Str :=
  (bytes.splitOn 0).dropLast

/-- The bytes end with a NUL, or hold as many as there are fields, or hold the end of a
text that is no number within its field's bound. -/
def Contained (maxs : List ℤ) (bytes : List UInt8) : Prop :=
  (∀ b ∈ bytes.getLast?, b = 0) ∨ maxs.length ≤ (endedTexts bytes).length ∨
    ∃ field ∈ maxs.zip (endedTexts bytes), ¬Numeral field.1 field.2

theorem endedTexts_of_notMem {bytes : List UInt8} (h : 0 ∉ bytes) : endedTexts bytes = [] := by
  rw [endedTexts, List.splitOn_eq_singleton h]
  rfl

theorem endedTexts_closed {s : Str} (hs : 0 ∉ s) (bytes : List UInt8) :
    endedTexts (s ++ 0 :: bytes) = s :: endedTexts bytes := by
  rw [endedTexts, List.splitOn_append_cons_self_of_not_mem hs,
    List.dropLast_cons_of_ne_nil (List.splitOn_ne_nil 0 bytes), endedTexts]

theorem contained_of_notMem {maxs : List ℤ} {max : ℤ} {bytes : List UInt8} (h : 0 ∉ bytes) :
    Contained (max :: maxs) bytes ↔ bytes = [] := by
  rw [Contained, endedTexts_of_notMem h, forall_getLast?_of_notMem h]
  simp

theorem contained_closed {maxs : List ℤ} {max : ℤ} {s : Str} (hs : 0 ∉ s) (bytes : List UInt8) :
    Contained (max :: maxs) (s ++ 0 :: bytes) ↔ (Numeral max s → Contained maxs bytes) := by
  rw [Contained, Contained, forall_getLast?_closed, endedTexts_closed hs]
  simp only [List.length_cons, List.zip_cons_cons, List.mem_cons, exists_eq_or_imp,
    Nat.add_le_add_iff_right]
  tauto

theorem contained_nil (bytes : List UInt8) : Contained [] bytes :=
  Or.inr (Or.inl (Nat.zero_le _))

theorem contained_of_le (maxs : List ℤ) {bytes : List UInt8} {idx : ℕ} (h : bytes.length ≤ idx) :
    Contained maxs (bytes.drop idx) := by
  rw [List.drop_eq_nil_of_le h]
  exact Or.inl (by simp)

/-- A field and what is read after it stay inside the buffer, whatever follows it. -/
theorem inside_fillField_iff {α : Type} {read : Str → Except Exn α} {max : ℤ} {maxs : List ℤ}
    (hread : ∀ text, (∃ v, read text = .ok v) ↔ Numeral max text) {bytes : List UInt8}
    (beyond : List UInt8) (rest : ℕ → List ℕ)
    (hrest : ∀ idx, (∀ j ∈ rest idx, j < bytes.length) ↔ Contained maxs (bytes.drop idx))
    (old : α) (idx : ℕ) : (∀ j ∈ fieldReads (bytes ++ beyond) bytes.length idx ++
      readsAfter (fillField read (bytes ++ beyond) bytes.length old idx) rest, j < bytes.length) ↔
        Contained (max :: maxs) (bytes.drop idx) := by
  rcases le_or_gt bytes.length idx with hle | hlt
  · rw [fieldReads, fillField, if_pos hle, if_pos hle, List.nil_append, readsAfter, hrest]
    exact iff_of_true (contained_of_le _ hle) (contained_of_le _ hle)
  obtain ⟨pre, w, hbytes, hidx⟩ : ∃ pre w, bytes = pre ++ w ∧ idx = pre.length :=
    ⟨bytes.take idx, bytes.drop idx, (List.take_append_drop _ _).symm, by simp [hlt.le]⟩
  rw [fieldReads, fillField, if_neg hlt.not_ge, if_neg hlt.not_ge, List.forall_mem_append]
  subst hbytes hidx
  rw [List.drop_left, List.append_assoc, List.length_append, forall_cstrReads_lt_iff]
  by_cases hzero : 0 ∈ w
  · obtain ⟨s, w', rfl, hs⟩ := List.eq_append_cons_of_mem hzero
    have hnext := hrest (pre.length + (s.length + 1))
    have hdrop : (pre ++ (s ++ 0 :: w')).drop (pre.length + (s.length + 1)) = w' := by simp
    rw [hdrop, List.length_append] at hnext
    rw [contained_closed hs, ← hread, and_iff_right hzero, cstr_closed pre hs, ← hnext]
    cases hv : read s with
    | error e => simp [readsAfter, hv]
    | ok v => simp [readsAfter, hv]
  · rw [contained_of_notMem hzero]
    refine iff_of_false (fun h => hzero h.1) (fun hw => ?_)
    simp [hw] at hlt

/-- The constructors read inside their 25 bytes exactly if these contain the fields. -/
theorem inside_iff (default : Header) {bytes : List UInt8} (h : bytes.length = 25)
    (beyond : List UInt8) : (∀ j ∈ reads default (bytes ++ beyond) 25, j < 25) ↔
      Contained [shortMax, ushortMax, 2 ^ 31 - 1] (bytes.drop 2) := by
  rw [reads, if_pos (by decide), List.forall_mem_cons, and_iff_right (by decide), ← h]
  refine inside_fillField_iff (fun _ => exists_within_iff) _ _ (fun idx => ?_) _ _
  refine inside_fillField_iff (fun _ => exists_within_iff) _ _ (fun idx => ?_) _ _
  have hlast := inside_fillField_iff (fun _ => exists_readBufferSize_iff) beyond (fun _ => [])
    (fun idx => iff_of_true (by simp) (contained_nil (bytes.drop idx))) default.bufferSize idx
  rwa [readsAfter_nil, List.append_nil] at hlast

end Header

/-- The indices `HeaderRequest(const char *, std::size_t)` reads. -/
def HeaderRequest.reads (mem : List UInt8) (bufferLength : ℕ) : List ℕ :=
  Header.reads default.toHeader mem bufferLength

/-- The indices `HeaderResponse(const char *, std::size_t)` reads. -/
def HeaderResponse.reads (mem : List UInt8) (bufferLength : ℕ) : List ℕ :=
  Header.reads default.toHeader mem bufferLength

/-- Whatever 25 bytes are received, as a request's header or a response's : only they are
read, if and only if the last is a NUL, or three of those from the third on are, or a text
that ends among them is no number within its field's bound. -/
theorem header_inside_iff {bytes : List UInt8} (h : bytes.length = 25) (beyond : List UInt8) :
    ((∀ j ∈ HeaderRequest.reads (bytes ++ beyond) 25, j < 25) ↔
      Header.Contained [shortMax, ushortMax, 2 ^ 31 - 1] (bytes.drop 2)) ∧
    ((∀ j ∈ HeaderResponse.reads (bytes ++ beyond) 25, j < 25) ↔
      Header.Contained [shortMax, ushortMax, 2 ^ 31 - 1] (bytes.drop 2)) :=
  ⟨Header.inside_iff _ h beyond, Header.inside_iff _ h beyond⟩

/-- The header a client sends to leave. -/
theorem header_inside_iff_default :
    ((∀ j ∈ HeaderRequest.reads (HeaderRequest.default.toHeader.bytes ++ []) 25, j < 25) ↔
      Header.Contained [shortMax, ushortMax, 2 ^ 31 - 1]
        (HeaderRequest.default.toHeader.bytes.drop 2)) ∧
    ((∀ j ∈ HeaderResponse.reads (HeaderRequest.default.toHeader.bytes ++ []) 25, j < 25) ↔
      Header.Contained [shortMax, ushortMax, 2 ^ 31 - 1]
        (HeaderRequest.default.toHeader.bytes.drop 2)) :=
  header_inside_iff (by decide +kernel) []

/-- A header of 25 digits : the first text runs on behind it. -/
theorem header_reads_beyond : ¬∀ j ∈ HeaderRequest.reads
    (0x2A :: 0 :: (List.replicate 23 0x31 ++ [0x32, 0])) 25, j < 25 := by
  decide +kernel

end SpaceBattle
