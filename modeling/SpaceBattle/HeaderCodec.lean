import SpaceBattle.HeaderTexts

/-!
# The header codec over its field types

`data` pads with zeros in front of the sign and the decoder reads an `int`, so not every
header comes back : a revision from `-1` to `-999` is written as zeros and a minus, which
reads as zero, one below `-9999` takes a byte more, and a body size from `2^31` on is
refused. `roundTrips_iff` : every other header is 25 bytes that decode to it.
-/

namespace SpaceBattle

open Cpp Buffer HeaderUtility

/-! ## The padded texts -/

/-- A negative number is padded in front of its sign. -/
theorem HeaderUtility.convert_neg (max : ℕ) {n : ℕ} (hn : 0 < n) : convert max (-n : ℤ) =
    List.replicate ((digits max).length - ((digits n).length + 1)) 0x30 ++ 0x2D :: digits n := by
  obtain ⟨m, rfl⟩ := Nat.exists_eq_succ_of_ne_zero hn.ne'
  have hstr : Cpp.toString (-((m + 1 : ℕ) : ℤ)) = 0x2D :: digits (m + 1) := rfl
  simp only [Nat.succ_eq_add_one, convert, toString_natCast, hstr, List.length_cons]
  split
  · rfl
  · rw [Nat.sub_eq_zero_of_le (by omega), List.replicate_zero, List.nil_append]

namespace Header

/-- A revision is a natural number, or the negative of a positive one. -/
theorem revision_cases (r : Int16) : (∃ n : ℕ, r.toInt = n ∧ n ≤ shortMax) ∨
    ∃ n : ℕ, r.toInt = -n ∧ 0 < n ∧ n ≤ 32768 := by
  have hlow := r.le_toInt
  have hhigh := r.toInt_le
  simp only [Int16.toInt_maxValue] at hhigh
  unfold shortMax
  rcases Int.eq_nat_or_neg r.toInt with ⟨n, hn | hn⟩
  · exact Or.inl ⟨n, hn, by omega⟩
  · rcases Nat.eq_zero_or_pos n with rfl | hpos
    · exact Or.inl ⟨0, by simpa using hn, by omega⟩
    · exact Or.inr ⟨n, hn, hpos, by omega⟩

theorem length_digits_shortMax : (digits shortMax).length = 5 :=
  rfl

theorem length_convert_revision_iff (r : Int16) :
    (convert shortMax r.toInt).length = 5 ↔ -9999 ≤ r.toInt := by
  rcases revision_cases r with ⟨n, hr, hn⟩ | ⟨n, hr, hpos, hn⟩
  · rw [hr, length_convert_natCast hn]
    exact iff_of_true rfl (by omega)
  · have hle := length_digits_le_iff (n := n) (k := 4) (by decide)
    rw [hr, convert_neg _ hpos, length_digits_shortMax]
    simp only [List.length_append, List.length_replicate, List.length_cons]
    omega

theorem zero_notMem_convert_int16 (r : Int16) : 0 ∉ convert shortMax r.toInt := by
  rcases revision_cases r with ⟨n, hr, -⟩ | ⟨n, hr, hpos, -⟩
  · rw [hr]
    exact zero_notMem_convert _ n
  · rw [hr, convert_neg _ hpos]
    simp [zero_notMem_digits]

/-- The text of a revision reads back unless zeros stand before its minus. -/
theorem readRevision_convert_iff (r : Int16) :
    readRevision (convert shortMax r.toInt) = .ok r ↔ 0 ≤ r.toInt ∨ r.toInt ≤ -1000 := by
  rcases revision_cases r with ⟨n, hr, hn⟩ | ⟨n, hr, hpos, hn⟩
  · have hnonneg : 0 ≤ r.toInt := by omega
    exact iff_of_true (readRevision_convert hnonneg) (Or.inl hnonneg)
  · have hle := length_digits_le_iff (n := n) (k := 3) (by decide)
    rw [hr, convert_neg _ hpos, length_digits_shortMax]
    cases hpad : 5 - ((digits n).length + 1) with
    | zero =>
      have hread : readRevision (0x2D :: digits n) = .ok r := by
        refine readRevision_eq_ok_iff.2 ⟨-n, stoi_minus (by omega), by omega, ?_⟩
        rw [← hr, Int16.ofInt_toInt]
      exact iff_of_true (by simpa using hread) (by omega)
    | succ k =>
      refine iff_of_false (fun hread => ?_) (by omega)
      obtain ⟨m, hm, -, hv⟩ := readRevision_eq_ok_iff.1 hread
      obtain rfl := Except.ok.inj (hm.symm.trans (stoi_zeros_minus k _))
      rw [← hv] at hr
      simp at hr
      omega

theorem readBufferSize_convert_iff (n : UInt32) :
    readBufferSize (convert uintMax n.toNat) = .ok n ↔ n.toNat < 2 ^ 31 := by
  refine ⟨?_, readBufferSize_convert⟩
  intro h
  obtain ⟨m, hm, -⟩ := readBufferSize_eq_ok_iff.1 h
  rw [convert_natCast] at hm
  exact lt_of_stoi_padded hm

/-! ## Round trips -/

/-- A header with a five-digit code is 25 bytes that decode to it, whatever follows. -/
theorem ofBuffer_bytes_iff {default h : Header} (hcode : 10000 ≤ h.code.toNat) :
    (h.bytes.length = 25 ∧ ∀ beyond, ofBuffer default (h.bytes ++ beyond) 25 = .ok h) ↔
      (0 ≤ h.revision.toInt ∨ (-9999 ≤ h.revision.toInt ∧ h.revision.toInt ≤ -1000)) ∧
        h.bufferSize.toNat < 2 ^ 31 := by
  have hlength : h.bytes.length = 25 ↔ -9999 ≤ h.revision.toInt := by
    rw [← length_convert_revision_iff]
    simp [bytes, length_digits_code hcode, length_convert_bufferSize]
  rw [hlength]
  rcases lt_or_ge h.revision.toInt (-9999) with hlong | hfits
  · exact iff_of_false (fun h => by omega) (by omega)
  have hdecode : ∀ beyond, ofBuffer default (h.bytes ++ beyond) 25 = .ok h ↔
      (0 ≤ h.revision.toInt ∨ h.revision.toInt ≤ -1000) ∧ h.bufferSize.toNat < 2 ^ 31 := by
    intro beyond
    have htexts := ofBuffer_texts_eq_ok_iff default h h.magic (zero_notMem_convert_int16 h.revision)
      (zero_notMem_digits h.code.toNat) (zero_notMem_convert uintMax h.bufferSize.toNat) beyond 25
      (by rw [(length_convert_revision_iff _).2 hfits, length_digits_code hcode]; decide)
    rw [← readRevision_convert_iff, ← readBufferSize_convert_iff]
    simpa [bytes, readCode_digits] using htexts
  simp only [hdecode, forall_const]
  omega

end Header

/-- The header's `data` is 25 bytes that decode to it, whatever follows them. -/
def HeaderRequest.RoundTrips (h : HeaderRequest) : Prop :=
  ∃ bs, h.data = copy 0 bs ∧ bs.length = 25 ∧
    ∀ beyond, HeaderRequest.ofBuffer (bs ++ beyond) 25 = .ok h

/-- The header's `data` is 25 bytes that decode to it, whatever follows them. -/
def HeaderResponse.RoundTrips (h : HeaderResponse) : Prop :=
  ∃ bs, h.data = copy 0 bs ∧ bs.length = 25 ∧
    ∀ beyond, HeaderResponse.ofBuffer (bs ++ beyond) 25 = .ok h

/-- What is written is the header's bytes. -/
theorem Header.exists_copy_iff {h : Header} {P : List UInt8 → Prop} :
    (∃ bs, h.data = copy 0 bs ∧ P bs) ↔ P h.bytes := by
  rw [data_eq]
  refine ⟨?_, fun hP => ⟨_, rfl, hP⟩⟩
  rintro ⟨bs, hcopy, hP⟩
  rwa [copy_inj hcopy]

/-- A header with a declared code is 25 bytes that decode to it exactly if no zeros stand
before a minus, the revision takes five bytes and the body size is an `int`. -/
theorem roundTrips_iff (magic : UInt8) (revision : Int16) (bufferSize : UInt32) :
    (∀ opCode : OpCode, HeaderRequest.RoundTrips ⟨magic, revision, opCode.code, bufferSize⟩ ↔
      (0 ≤ revision.toInt ∨ (-9999 ≤ revision.toInt ∧ revision.toInt ≤ -1000)) ∧
        bufferSize.toNat < 2 ^ 31) ∧
    ∀ statusCode : StatusCode,
      HeaderResponse.RoundTrips ⟨magic, revision, statusCode.code, bufferSize⟩ ↔
        (0 ≤ revision.toInt ∨ (-9999 ≤ revision.toInt ∧ revision.toInt ≤ -1000)) ∧
          bufferSize.toNat < 2 ^ 31 := by
  constructor
  · intro opCode
    rw [HeaderRequest.RoundTrips, HeaderRequest.data, Header.exists_copy_iff]
    simp only [HeaderRequest.ofBuffer_eq_ok_iff]
    exact Header.ofBuffer_bytes_iff opCode.code_bounds.1
  · intro statusCode
    rw [HeaderResponse.RoundTrips, HeaderResponse.data, Header.exists_copy_iff]
    simp only [HeaderResponse.ofBuffer_eq_ok_iff]
    exact Header.ofBuffer_bytes_iff statusCode.code_bounds.1

/-- Revision `-5` is written as `000-5`, which reads as zero. -/
theorem revision_lost :
    ¬HeaderRequest.RoundTrips ⟨0x2A, -5, OpCode.clientConnect.code, 0⟩ := by
  rintro ⟨bs, hcopy, -, hdecode⟩
  rw [HeaderRequest.data, Header.data_eq] at hcopy
  have hfive := hdecode []
  rw [← copy_inj hcopy] at hfive
  revert hfive
  decide +kernel

end SpaceBattle
