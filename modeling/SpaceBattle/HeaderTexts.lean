import SpaceBattle.Connection

/-!
# The texts of a header

The buffer constructors read the C strings of the three fields, as far as they start
inside the buffer (`Header.texts`), and cast the numbers `stoi` finds in them.
`Header.ofBuffer_eq_ok_iff` : a decoded header is what its texts say, field by field.

The casts are guarded from above only, so a number below its field's range wraps :
`neverWraps_iff` says when the stored fields are the numbers read. A body size that wraps
to the largest `unsigned` makes the client allocate nothing for the body
(`bodyWanted_le_bodyAllocated_iff`).
-/

namespace SpaceBattle

open Cpp

namespace Header

/-! ## What is decoded -/

/-- The text of a field, if it starts inside the buffer. -/
def textAt (mem : List UInt8) (bufferLength idx : ℕ) : Option Str :=
  if bufferLength ≤ idx then none else some (cstr mem idx)

/-- The texts of the `k` fields from `idx` on, as far as they start inside the buffer. -/
def textsFrom (mem : List UInt8) (bufferLength : ℕ) : ℕ → ℕ → List Str
  | _, 0 => []
  | idx, k + 1 =>
    if bufferLength ≤ idx then []
    else cstr mem idx :: textsFrom mem bufferLength (idx + ((cstr mem idx).length + 1)) k

/-- The texts of the revision, the code and the body size. -/
def texts (mem : List UInt8) (bufferLength : ℕ) : List Str :=
  textsFrom mem bufferLength 2 3

/-- A field's value is read from its text, and the default if there is no text. -/
def Field {α : Type} (read : Str → Except Exn α) (old : α) (text : Option Str) (value : α) :
    Prop :=
  match text with
  | none => value = old
  | some text => read text = .ok value

/-- Where the next field starts. -/
def nextIdx (mem : List UInt8) (bufferLength idx : ℕ) : ℕ :=
  if bufferLength ≤ idx then idx else idx + ((cstr mem idx).length + 1)

theorem textsFrom_of_le {mem : List UInt8} {bufferLength idx : ℕ} (h : bufferLength ≤ idx)
    (k : ℕ) : textsFrom mem bufferLength idx k = [] := by
  cases k with
  | zero => rfl
  | succ k => exact if_pos h

/-- The texts of the later fields start where the field ends. -/
theorem getElem?_textsFrom_succ (mem : List UInt8) (bufferLength idx k i : ℕ) :
    (textsFrom mem bufferLength idx (k + 1))[i + 1]? =
      (textsFrom mem bufferLength (nextIdx mem bufferLength idx) k)[i]? := by
  unfold nextIdx
  split
  · rename_i hle
    rw [textsFrom_of_le hle, textsFrom_of_le hle]
    rfl
  · rename_i hlt
    rw [textsFrom, if_neg hlt]
    rfl

theorem getElem?_textsFrom_zero (mem : List UInt8) (bufferLength idx k : ℕ) :
    (textsFrom mem bufferLength idx (k + 1))[0]? = textAt mem bufferLength idx := by
  rw [textsFrom, textAt]
  split <;> rfl

theorem fillField_eq_ok_iff {α : Type} {read : Str → Except Exn α} {mem : List UInt8}
    {bufferLength : ℕ} {old value : α} {idx idx' : ℕ} :
    fillField read mem bufferLength old idx = .ok (value, idx') ↔
      Field read old (textAt mem bufferLength idx) value ∧
        idx' = nextIdx mem bufferLength idx := by
  unfold fillField nextIdx textAt
  by_cases hle : bufferLength ≤ idx
  · simp [hle, Field, eq_comm]
  · simp only [hle, if_false, Field, bind_eq_ok]
    refine ⟨?_, ?_⟩
    · rintro ⟨v, hv, heq⟩
      obtain ⟨rfl, rfl⟩ := Prod.mk.inj (Except.ok.inj heq)
      exact ⟨hv, rfl⟩
    · rintro ⟨hv, rfl⟩
      exact ⟨value, hv, rfl⟩

/-- A decoded header is what the texts of the buffer say, field by field. -/
theorem ofBuffer_eq_ok_iff (default : Header) (mem : List UInt8) {bufferLength : ℕ}
    (hpos : 0 < bufferLength) (h : Header) : ofBuffer default mem bufferLength = .ok h ↔
      h.magic = mem.headD 0 ∧
      Field readRevision default.revision (texts mem bufferLength)[0]? h.revision ∧
      Field readCode default.code (texts mem bufferLength)[1]? h.code ∧
      Field readBufferSize default.bufferSize (texts mem bufferLength)[2]? h.bufferSize := by
  rw [ofBuffer, if_pos hpos]
  simp only [bind_eq_ok, Prod.exists, texts, getElem?_textsFrom_succ, getElem?_textsFrom_zero,
    fillField_eq_ok_iff]
  refine ⟨?_, ?_⟩
  · rintro ⟨revision, _, ⟨hrev, rfl⟩, code, _, ⟨hcode, rfl⟩, size, _, ⟨hsize, rfl⟩, heq⟩
    obtain rfl := Except.ok.inj heq
    exact ⟨rfl, hrev, hcode, hsize⟩
  · rintro ⟨hmagic, hrev, hcode, hsize⟩
    refine ⟨h.revision, _, ⟨hrev, rfl⟩, h.code, _, ⟨hcode, rfl⟩, h.bufferSize, _, ⟨hsize, rfl⟩, ?_⟩
    rw [← hmagic]

/-! ## The casts -/

theorem readRevision_eq_ok_iff {text : Str} {v : Int16} : readRevision text = .ok v ↔
    ∃ n, stoi text = .ok n ∧ n ≤ shortMax ∧ Int16.ofInt n = v :=
  within_eq_ok_iff

theorem readCode_eq_ok_iff {text : Str} {v : UInt16} : readCode text = .ok v ↔
    ∃ n, stoi text = .ok n ∧ n ≤ ushortMax ∧ UInt16.ofInt n = v :=
  within_eq_ok_iff

theorem readBufferSize_eq_ok_iff {text : Str} {v : UInt32} : readBufferSize text = .ok v ↔
    ∃ n, stoi text = .ok n ∧ UInt32.ofInt n = v := by
  simp [readBufferSize, bind_eq_ok]

theorem toInt_ofInt_int16 {n : ℤ} (hmax : n ≤ shortMax) :
    (Int16.ofInt n).toInt = n ↔ -32768 ≤ n := by
  unfold shortMax at hmax
  refine ⟨fun h => ?_, fun h => Int16.toInt_ofInt_of_le h (by omega)⟩
  have hle := (Int16.ofInt n).le_toInt
  rw [h] at hle
  simpa using hle

theorem toNat_ofInt_uint16 {n : ℤ} (hmax : n ≤ ushortMax) :
    ((UInt16.ofInt n).toNat : ℤ) = n ↔ 0 ≤ n := by
  unfold ushortMax at hmax
  rw [UInt16.ofInt, UInt16.toNat_ofNat']
  omega

theorem toNat_ofInt_uint32 {n : ℤ} (hn : IsInt n) : ((UInt32.ofInt n).toNat : ℤ) = n ↔ 0 ≤ n := by
  have hlt := hn.2
  rw [UInt32.ofInt, UInt32.toNat_ofNat']
  omega

/-! ## Numbers that wrap -/

/-- The text of the field was read, and denotes the number. -/
def Number (mem : List UInt8) (i : ℕ) (n : ℤ) : Prop :=
  ∃ text, (texts mem 25)[i]? = some text ∧ stoi text = .ok n

/-- Each field whose text was read is the number in it. -/
def Exact (mem : List UInt8) (h : Header) : Prop :=
  (∀ text, (texts mem 25)[0]? = some text → stoi text = .ok h.revision.toInt) ∧
  (∀ text, (texts mem 25)[1]? = some text → stoi text = .ok (h.code.toNat : ℤ)) ∧
  ∀ text, (texts mem 25)[2]? = some text → stoi text = .ok (h.bufferSize.toNat : ℤ)

/-- What was decoded is exact, and nothing was if a number is out of its field's range. -/
def NeverWraps (mem : List UInt8) (decoded : Except Exn Header) : Prop :=
  (∀ h, decoded = .ok h → Exact mem h) ∧
  ∀ n, Number mem 0 n ∧ ¬(-32768 ≤ n ∧ n ≤ 32767) ∨ Number mem 1 n ∧ ¬(0 ≤ n ∧ n ≤ 65535) ∨
    Number mem 2 n ∧ ¬(0 ≤ n ∧ n ≤ 4294967295) → ¬∃ h, decoded = .ok h

/-- No number read is below its field's range. -/
def NoneBelow (mem : List UInt8) : Prop :=
  ∀ n, (Number mem 0 n → -32768 ≤ n) ∧ (Number mem 1 n → 0 ≤ n) ∧ (Number mem 2 n → 0 ≤ n)

/-- The numbers of a header that was decoded are within the upper bounds. -/
theorem le_of_ofBuffer {default h : Header} {mem : List UInt8} (hdecoded : ofBuffer default mem 25 =
    .ok h) {n : ℤ} : (Number mem 0 n → n ≤ shortMax ∧ h.revision = Int16.ofInt n) ∧
      (Number mem 1 n → n ≤ ushortMax ∧ h.code = UInt16.ofInt n) ∧
      (Number mem 2 n → IsInt n ∧ h.bufferSize = UInt32.ofInt n) := by
  obtain ⟨-, hrev, hcode, hsize⟩ := (ofBuffer_eq_ok_iff default mem (by decide) h).1 hdecoded
  refine ⟨?_, ?_, ?_⟩
  · rintro ⟨text, htext, hn⟩
    rw [htext] at hrev
    obtain ⟨m, hm, hle, hv⟩ := readRevision_eq_ok_iff.1 hrev
    obtain rfl := Except.ok.inj (hm.symm.trans hn)
    exact ⟨hle, hv.symm⟩
  · rintro ⟨text, htext, hn⟩
    rw [htext] at hcode
    obtain ⟨m, hm, hle, hv⟩ := readCode_eq_ok_iff.1 hcode
    obtain rfl := Except.ok.inj (hm.symm.trans hn)
    exact ⟨hle, hv.symm⟩
  · rintro ⟨text, htext, hn⟩
    rw [htext] at hsize
    obtain ⟨m, hm, hv⟩ := readBufferSize_eq_ok_iff.1 hsize
    obtain rfl := Except.ok.inj (hm.symm.trans hn)
    exact ⟨(stoi_eq_ok_iff.1 hm).2, hv.symm⟩

/-- Every text of a header that was decoded denotes a number. -/
theorem exists_number_of_ofBuffer {default h : Header} {mem : List UInt8}
    (hdecoded : ofBuffer default mem 25 = .ok h) {i : ℕ} {text : Str}
    (htext : (texts mem 25)[i]? = some text) : ∃ n, stoi text = .ok n := by
  obtain ⟨-, hrev, hcode, hsize⟩ := (ofBuffer_eq_ok_iff default mem (by decide) h).1 hdecoded
  match i with
  | 0 =>
    rw [htext] at hrev
    obtain ⟨n, hn, -⟩ := readRevision_eq_ok_iff.1 hrev
    exact ⟨n, hn⟩
  | 1 =>
    rw [htext] at hcode
    obtain ⟨n, hn, -⟩ := readCode_eq_ok_iff.1 hcode
    exact ⟨n, hn⟩
  | 2 =>
    rw [htext] at hsize
    obtain ⟨n, hn, -⟩ := readBufferSize_eq_ok_iff.1 hsize
    exact ⟨n, hn⟩
  | i + 3 =>
    rw [texts, getElem?_textsFrom_succ, getElem?_textsFrom_succ, getElem?_textsFrom_succ] at htext
    simp [textsFrom] at htext

/-- A field whose text does not start in the header keeps the default. -/
theorem eq_default_of_ofBuffer {default h : Header} {mem : List UInt8}
    (hdecoded : ofBuffer default mem 25 = .ok h) :
    ((texts mem 25)[1]? = none → h.code = default.code) ∧
      ((texts mem 25)[2]? = none → h.bufferSize = default.bufferSize) := by
  obtain ⟨-, -, hcode, hsize⟩ := (ofBuffer_eq_ok_iff default mem (by decide) h).1 hdecoded
  constructor
  · intro hnone
    rwa [hnone] at hcode
  · intro hnone
    rwa [hnone] at hsize

/-- A decoded header whose numbers are not below their fields' ranges is exact. -/
theorem exact_of_ofBuffer {default h : Header} {mem : List UInt8}
    (hdecoded : ofBuffer default mem 25 = .ok h) (hbelow : NoneBelow mem) : Exact mem h := by
  refine ⟨?_, ?_, ?_⟩
  · intro text htext
    obtain ⟨n, hn⟩ := exists_number_of_ofBuffer hdecoded htext
    obtain ⟨hle, hv⟩ := (le_of_ofBuffer hdecoded).1 ⟨text, htext, hn⟩
    rw [hv, (toInt_ofInt_int16 hle).2 ((hbelow n).1 ⟨text, htext, hn⟩), hn]
  · intro text htext
    obtain ⟨n, hn⟩ := exists_number_of_ofBuffer hdecoded htext
    obtain ⟨hle, hv⟩ := (le_of_ofBuffer hdecoded).2.1 ⟨text, htext, hn⟩
    rw [hv, (toNat_ofInt_uint16 hle).2 ((hbelow n).2.1 ⟨text, htext, hn⟩), hn]
  · intro text htext
    obtain ⟨n, hn⟩ := exists_number_of_ofBuffer hdecoded htext
    obtain ⟨hint, hv⟩ := (le_of_ofBuffer hdecoded).2.2 ⟨text, htext, hn⟩
    rw [hv, (toNat_ofInt_uint32 hint).2 ((hbelow n).2.2 ⟨text, htext, hn⟩), hn]

/-- What is decoded never wraps exactly if no number of it is below its field's range. -/
theorem neverWraps_ofBuffer_iff (default : Header) (mem : List UInt8) :
    NeverWraps mem (ofBuffer default mem 25) ↔
      (Numerals mem 25 2 [shortMax, ushortMax, 2 ^ 31 - 1] → NoneBelow mem) := by
  rw [← exists_ofBuffer_iff default mem (by decide)]
  constructor
  · rintro ⟨-, hrange⟩ hok n
    refine ⟨?_, ?_, ?_⟩
    · intro hn
      exact not_lt.1 fun hlt => hrange n (Or.inl ⟨hn, by omega⟩) hok
    · intro hn
      exact not_lt.1 fun hlt => hrange n (Or.inr (Or.inl ⟨hn, by omega⟩)) hok
    · intro hn
      exact not_lt.1 fun hlt => hrange n (Or.inr (Or.inr ⟨hn, by omega⟩)) hok
  · intro hsound
    refine ⟨fun h hdecoded => exact_of_ofBuffer hdecoded (hsound ⟨h, hdecoded⟩), ?_⟩
    rintro n hout ⟨h, hdecoded⟩
    obtain ⟨hlow₀, hlow₁, hlow₂⟩ := hsound ⟨h, hdecoded⟩ n
    obtain ⟨hhigh₀, hhigh₁, hhigh₂⟩ := le_of_ofBuffer hdecoded (n := n)
    rcases hout with ⟨hn, hout⟩ | ⟨hn, hout⟩ | ⟨hn, hout⟩
    · exact hout ⟨hlow₀ hn, (hhigh₀ hn).1⟩
    · exact hout ⟨hlow₁ hn, (hhigh₁ hn).1⟩
    · have hlt := (hhigh₂ hn).1.2
      exact hout ⟨hlow₂ hn, by omega⟩

end Header

theorem HeaderRequest.map_toHeader_ofBuffer (mem : List UInt8) (bufferLength : ℕ) :
    (HeaderRequest.ofBuffer mem bufferLength).map toHeader =
      Header.ofBuffer default.toHeader mem bufferLength := by
  rw [HeaderRequest.ofBuffer]
  cases Header.ofBuffer default.toHeader mem bufferLength <;> rfl

theorem HeaderResponse.map_toHeader_ofBuffer (mem : List UInt8) (bufferLength : ℕ) :
    (HeaderResponse.ofBuffer mem bufferLength).map toHeader =
      Header.ofBuffer default.toHeader mem bufferLength := by
  rw [HeaderResponse.ofBuffer]
  cases Header.ofBuffer default.toHeader mem bufferLength <;> rfl

theorem HeaderRequest.ofBuffer_eq_ok_iff {mem : List UInt8} {bufferLength : ℕ}
    {h : HeaderRequest} : ofBuffer mem bufferLength = .ok h ↔
      Header.ofBuffer default.toHeader mem bufferLength = .ok h.toHeader := by
  rw [ofBuffer]
  cases Header.ofBuffer default.toHeader mem bufferLength with
  | error e => simp [Except.map]
  | ok h' =>
    obtain ⟨magic, revision, code, bufferSize⟩ := h
    obtain ⟨magic', revision', code', bufferSize'⟩ := h'
    simp [Except.map, ofHeader, toHeader]

theorem HeaderResponse.ofBuffer_eq_ok_iff {mem : List UInt8} {bufferLength : ℕ}
    {h : HeaderResponse} : ofBuffer mem bufferLength = .ok h ↔
      Header.ofBuffer default.toHeader mem bufferLength = .ok h.toHeader := by
  rw [ofBuffer]
  cases Header.ofBuffer default.toHeader mem bufferLength with
  | error e => simp [Except.map]
  | ok h' =>
    obtain ⟨magic, revision, code, bufferSize⟩ := h
    obtain ⟨magic', revision', code', bufferSize'⟩ := h'
    simp [Except.map, ofHeader, toHeader]

/-- Whatever 25 bytes are decoded, as a request's header or a response's : the fields are
the numbers read, and a number out of its field's range is refused, if and only if no
number of a header that is accepted is below its field's range. -/
theorem neverWraps_iff (mem : List UInt8) :
    (Header.NeverWraps mem ((HeaderRequest.ofBuffer mem 25).map HeaderRequest.toHeader) ↔
      (Header.Numerals mem 25 2 [shortMax, ushortMax, 2 ^ 31 - 1] → Header.NoneBelow mem)) ∧
    (Header.NeverWraps mem ((HeaderResponse.ofBuffer mem 25).map HeaderResponse.toHeader) ↔
      (Header.Numerals mem 25 2 [shortMax, ushortMax, 2 ^ 31 - 1] → Header.NoneBelow mem)) := by
  rw [HeaderRequest.map_toHeader_ofBuffer, HeaderResponse.map_toHeader_ofBuffer]
  exact ⟨Header.neverWraps_ofBuffer_iff _ mem, Header.neverWraps_ofBuffer_iff _ mem⟩

/-- A header whose code is `-1`, stored as `65535`. -/
theorem code_wraps : ¬Header.NeverWraps
    (0x2A :: 0 :: (lit "00001" ++ 0 :: (lit "-0001" ++ 0 :: (lit "0000000000" ++ [0]))))
    ((HeaderRequest.ofBuffer
      (0x2A :: 0 :: (lit "00001" ++ 0 :: (lit "-0001" ++ 0 :: (lit "0000000000" ++ [0])))) 25).map
        HeaderRequest.toHeader) := by
  intro ⟨hexact, _⟩
  have hdecoded := hexact ⟨0x2A, 1, 65535, 0⟩ (by decide +kernel)
  have hcode := hdecoded.2.1 (lit "-0001") (by decide +kernel)
  revert hcode
  decide +kernel

/-! ## The client's body buffer -/

/-- `OutputConnection::read_body` : the bytes it allocates, `header.bufferSize + 1` in
`unsigned`. -/
def OutputConnection.bodyAllocated (header : HeaderResponse) : UInt32 :=
  header.bufferSize + 1

/-- `OutputConnection::read_body` : the bytes it asks `async_read` to store there. -/
def OutputConnection.bodyWanted (header : HeaderResponse) : UInt32 :=
  header.bufferSize

theorem le_add_one_iff_uint32 (n : UInt32) : n ≤ n + 1 ↔ n.toNat ≠ 4294967295 := by
  have hn := n.toNat_lt
  rw [UInt32.le_iff_toNat_le, UInt32.toNat_add]
  simp only [UInt32.toNat_one]
  omega

theorem toNat_ofInt_eq_uintMax_iff {n : ℤ} (hn : IsInt n) :
    (UInt32.ofInt n).toNat = 4294967295 ↔ n = -1 := by
  obtain ⟨hlow, hhigh⟩ := hn
  rw [UInt32.ofInt, UInt32.toNat_ofNat']
  omega

/-- The client's buffer is large enough for the body unless the text of the body size was
read and denotes `-1`. -/
theorem bodyWanted_le_bodyAllocated_iff {mem : List UInt8} {header : HeaderResponse}
    (h : HeaderResponse.ofBuffer mem 25 = .ok header) :
    OutputConnection.bodyWanted header ≤ OutputConnection.bodyAllocated header ↔
      ∀ text, (Header.texts mem 25)[2]? = some text → stoi text ≠ .ok (-1) := by
  have hdecoded := HeaderResponse.ofBuffer_eq_ok_iff.1 h
  have hsize : OutputConnection.bodyWanted header = header.toHeader.bufferSize := rfl
  rw [OutputConnection.bodyAllocated, ← OutputConnection.bodyWanted, le_add_one_iff_uint32, hsize]
  cases htext : (Header.texts mem 25)[2]? with
  | none =>
    rw [(Header.eq_default_of_ofBuffer hdecoded).2 htext]
    exact iff_of_true (by decide) (by simp)
  | some text =>
    obtain ⟨n, hn⟩ := Header.exists_number_of_ofBuffer hdecoded htext
    obtain ⟨hint, hv⟩ := (Header.le_of_ofBuffer hdecoded).2.2 ⟨text, htext, hn⟩
    rw [hv, ne_eq, toNat_ofInt_eq_uintMax_iff hint]
    refine ⟨fun hne text' htext' hminus => ?_, fun hall hminus => ?_⟩
    · obtain rfl := Option.some.inj htext'
      exact hne (Except.ok.inj (hn.symm.trans hminus))
    · exact hall text rfl (hminus ▸ hn)

/-- The header of an answer that lists one game, whose body takes seven bytes. -/
theorem bodyWanted_le_bodyAllocated_list :
    OutputConnection.bodyWanted (makeResponse .ok [lit "1", lit "duel"]).header = 7 ∧
    (OutputConnection.bodyWanted (makeResponse .ok [lit "1", lit "duel"]).header ≤
        OutputConnection.bodyAllocated (makeResponse .ok [lit "1", lit "duel"]).header ↔
      ∀ text, (Header.texts ((makeResponse .ok [lit "1", lit "duel"]).header.toHeader.bytes ++ [])
        25)[2]? = some text → stoi text ≠ .ok (-1)) :=
  ⟨by decide +kernel, bodyWanted_le_bodyAllocated_iff
    (HeaderResponse.ofBuffer_bytes (plain_makeResponse .ok (by decide)) [])⟩

/-- The body size `-1` is stored as the largest `unsigned`, and nothing is allocated. -/
theorem nothing_allocated : ∃ header, HeaderResponse.ofBuffer
      (0x2A :: 0 :: (lit "00001" ++ 0 :: (lit "45056" ++ 0 :: (lit "-000000001" ++ [0])))) 25 =
        .ok header ∧
    OutputConnection.bodyAllocated header = 0 ∧
    ¬OutputConnection.bodyWanted header ≤ OutputConnection.bodyAllocated header :=
  ⟨⟨0x2A, 1, 45056, 4294967295⟩, by decide +kernel, by decide +kernel, by decide +kernel⟩

end SpaceBattle
