import SpaceBattle.Canonical
import SpaceBattle.HeaderCodec
import SpaceBattle.Reads

/-!
# A request in one buffer

The server's loop decodes a request in two reads, a header from 25 bytes and a body from
as many as the header says. `Request(const char *, std::size_t)` decodes one from a
single buffer, and looks for the body behind as many bytes as the decoded header would be
written in. These are 25 exactly if the revision and the code take ten characters
together (`HeaderRequest.size_eq_iff`).

`oneShot_iff` : both decode a message the loop reads to the same request if and only if
they do, by the numbers in the header's texts (`Header.TenCharacters`), and a text that
runs on behind the 25 bytes denotes the same number there as in what the memory holds
after `m_data` (`Header.SameNumbers`). No text runs on, and only the first condition is
left, when the 25 bytes end with a NUL or hold the ends of three texts
(`Header.sameNumbers_of_ended`).
-/

namespace SpaceBattle

open Cpp HeaderUtility InputConnection

/-- `Request(const char *buffer, std::size_t buffer_length)`, `mem` the memory from
`buffer` on. The length of the body is a difference of two `std::size_t`. -/
def Request.ofBuffer (mem : List UInt8) (bufferLength : ℕ) : Except Exn Request := do
  let header ← HeaderRequest.ofBuffer mem bufferLength
  .ok ⟨header,
    Body.ofBuffer (mem.drop header.size) (toSize ((bufferLength : ℤ) - header.size))⟩

theorem Request.ofBuffer_eq_ok_iff {mem : List UInt8} {bufferLength : ℕ} {r : Request} :
    ofBuffer mem bufferLength = .ok r ↔ HeaderRequest.ofBuffer mem bufferLength = .ok r.header ∧
      r.body = Body.ofBuffer (mem.drop r.header.size)
        (toSize ((bufferLength : ℤ) - r.header.size)) := by
  rw [ofBuffer, bind_eq_ok]
  constructor
  · rintro ⟨header, hheader, heq⟩
    obtain rfl := Except.ok.inj heq
    exact ⟨hheader, rfl⟩
  · rintro ⟨hheader, hbody⟩
    refine ⟨r.header, hheader, ?_⟩
    rw [← hbody]

/-! ## The header -/

namespace Header

/-- If all the texts start in a part of the buffer, they are the buffer's texts. -/
theorem textsFrom_of_le_length {mem : List UInt8} {n m : ℕ} (hle : n ≤ m) :
    ∀ {k idx : ℕ}, k ≤ (textsFrom mem n idx k).length →
      textsFrom mem m idx k = textsFrom mem n idx k
  | 0, _, _ => rfl
  | k + 1, idx, h => by
    rcases le_or_gt n idx with hout | hlt
    · rw [textsFrom_of_le hout] at h
      simp at h
    rw [textsFrom, if_neg hlt.not_ge, List.length_cons, Nat.add_le_add_iff_right] at h
    rw [textsFrom, textsFrom, if_neg hlt.not_ge, if_neg (hlt.trans_le hle).not_ge,
      textsFrom_of_le_length hle h]

/-- As many texts start in a buffer, whatever follows it. -/
theorem length_textsFrom_congr {mem mem' : List UInt8} {n : ℕ} (h : ∀ j < n, mem[j]? = mem'[j]?) :
    ∀ k idx, (textsFrom mem n idx k).length = (textsFrom mem' n idx k).length
  | 0, _ => rfl
  | k + 1, idx => by
    rcases le_or_gt n idx with hout | hlt
    · rw [textsFrom_of_le hout, textsFrom_of_le hout]
    rw [textsFrom, textsFrom, if_neg hlt.not_ge, if_neg hlt.not_ge, List.length_cons,
      List.length_cons]
    by_cases hend : idx + (cstr mem idx).length < n
    · rw [cstr_eq_of_lt h hend, length_textsFrom_congr h k]
    by_cases hend' : idx + (cstr mem' idx).length < n
    · rw [cstr_eq_of_lt (fun j hj => (h j hj).symm) hend', length_textsFrom_congr h k]
    rw [textsFrom_of_le (by omega), textsFrom_of_le (by omega)]

/-- The numbers two texts of a field denote, the second within the bound, are the same
modulo the field's size. -/
def Congruent (max modulus : ℤ) (text text' : Option Str) : Prop :=
  ∀ t ∈ text, ∀ t' ∈ text', ∃ n n', stoi t = .ok n ∧ stoi t' = .ok n' ∧ n' ≤ max ∧
    n % modulus = n' % modulus

/-- The texts that start in the header's 25 bytes are the same numbers in both memories. -/
structure SameNumbers (mem mem' : List UInt8) : Prop where
  revision : Congruent shortMax (2 ^ 16) (texts mem 25)[0]? (texts mem' 25)[0]?
  code : Congruent ushortMax (2 ^ 16) (texts mem 25)[1]? (texts mem' 25)[1]?
  bufferSize : Congruent (2 ^ 31 - 1) (2 ^ 32) (texts mem 25)[2]? (texts mem' 25)[2]?

/-- A field that was read from one text is read from another if the numbers are the same. -/
theorem field_iff_congruent {α : Type} {read : Str → Except Exn α} {max modulus : ℤ}
    {cast : ℤ → α}
    (hread : ∀ text v, read text = .ok v ↔ ∃ n, stoi text = .ok n ∧ n ≤ max ∧ cast n = v)
    (hcast : ∀ m n, cast m = cast n ↔ m % modulus = n % modulus) {old value : α}
    {text text' : Option Str} (hsome : text.isSome = text'.isSome)
    (hfield : Field read old text value) :
    Field read old text' value ↔ Congruent max modulus text text' := by
  cases text with
  | none =>
    obtain rfl : text' = none := by simpa using hsome.symm
    exact iff_of_true hfield fun t ht => by simp at ht
  | some t =>
    obtain ⟨t', rfl⟩ := Option.isSome_iff_exists.1 hsome.symm
    obtain ⟨n, hn, -, rfl⟩ := (hread t value).1 hfield
    rw [Field, hread]
    constructor
    · rintro ⟨n', hn', hmax, hv⟩ _ ⟨⟩ _ ⟨⟩
      exact ⟨n, n', hn, hn', hmax, (hcast n n').1 hv.symm⟩
    · intro hall
      obtain ⟨m, n', hm, hn', hmax, hmod⟩ := hall t rfl t' rfl
      obtain rfl := Except.ok.inj (hm.symm.trans hn)
      exact ⟨n', hn', hmax, ((hcast m n').2 hmod).symm⟩

theorem readBufferSize_within {text : Str} {v : UInt32} : readBufferSize text = .ok v ↔
    ∃ n, stoi text = .ok n ∧ n ≤ 2 ^ 31 - 1 ∧ UInt32.ofInt n = v := by
  rw [readBufferSize_eq_ok_iff]
  refine exists_congr fun n => ⟨?_, fun ⟨hn, _, hv⟩ => ⟨hn, hv⟩⟩
  rintro ⟨hn, hv⟩
  have hlt := (stoi_eq_ok_iff.1 hn).2.2
  exact ⟨hn, by omega, hv⟩

/-- A header that was decoded from 25 bytes is decoded from a longer buffer that begins
with them if the numbers are the same and, if it is longer, all three texts start in them. -/
theorem ofBuffer_iff_sameNumbers {default h : Header} {mem mem' : List UInt8} {bufferLength : ℕ}
    (hagree : ∀ j < 25, mem[j]? = mem'[j]?) (hle : 25 ≤ bufferLength)
    (hall : bufferLength = 25 ∨ 3 ≤ (texts mem 25).length) (h25 : ofBuffer default mem 25 = .ok h) :
    ofBuffer default mem' bufferLength = .ok h ↔ SameNumbers mem mem' := by
  have hlength : (texts mem 25).length = (texts mem' 25).length :=
    length_textsFrom_congr hagree 3 2
  have htexts : texts mem' bufferLength = texts mem' 25 := by
    rcases hall with rfl | hthree
    · rfl
    · exact textsFrom_of_le_length hle (hlength ▸ hthree)
  have hsome : ∀ i : ℕ, (texts mem 25)[i]?.isSome = (texts mem' 25)[i]?.isSome := by
    intro i
    rw [Bool.eq_iff_iff, isSome_getElem?, isSome_getElem?, hlength]
  have hmagic : mem'.headD 0 = mem.headD 0 := by
    rw [List.headD_eq_head?_getD, List.headD_eq_head?_getD, List.head?_eq_getElem?,
      List.head?_eq_getElem?, hagree 0 (by decide)]
  obtain ⟨hm, hrev, hcode, hsize⟩ := (ofBuffer_eq_ok_iff default mem (by decide) h).1 h25
  rw [ofBuffer_eq_ok_iff default mem' (by omega), htexts, hmagic, and_iff_right hm,
    field_iff_congruent (fun _ _ => readRevision_eq_ok_iff) ofInt_int16_eq_iff (hsome 0) hrev,
    field_iff_congruent (fun _ _ => readCode_eq_ok_iff) ofInt_uint16_eq_iff (hsome 1) hcode,
    field_iff_congruent (fun _ _ => readBufferSize_within) ofInt_uint32_eq_iff (hsome 2) hsize]
  exact ⟨fun ⟨hr, hc, hs⟩ => ⟨hr, hc, hs⟩, fun ⟨hr, hc, hs⟩ => ⟨hr, hc, hs⟩⟩

/-- Behind 25 bytes that end with a NUL, or that hold the ends of three texts, nothing is
read, so the numbers are the same whatever follows. -/
theorem sameNumbers_of_ended {default h : Header} {bytes : List UInt8} (h25 : bytes.length = 25)
    {beyond : List UInt8} (hdecoded : ofBuffer default (bytes ++ beyond) 25 = .ok h)
    (hended : (∀ b ∈ (bytes.drop 2).getLast?, b = 0) ∨ 3 ≤ (endedTexts (bytes.drop 2)).length)
    (rest : List UInt8) : SameNumbers (bytes ++ beyond) (bytes ++ rest) := by
  have hagree : ∀ j < 25, (bytes ++ beyond)[j]? = (bytes ++ rest)[j]? := fun j hj => by
    rw [List.getElem?_append_left (by omega), List.getElem?_append_left (by omega)]
  have hinside := (inside_iff default h25 beyond).2 (hended.imp_right Or.inl)
  rw [← ofBuffer_iff_sameNumbers hagree le_rfl (Or.inl rfl) hdecoded,
    ofBuffer_congr fun j hj => hagree j (hinside j hj), hdecoded]

/-! ## Where the body starts -/

/-- The numbers of the header, as they are stored, are written in ten characters : the
revision in five and the code in five, or in six and four. -/
def TenCharacters (mem : List UInt8) : Prop :=
  (∃ n, Number mem 0 n ∧ -9999 ≤ n.bmod (2 ^ 16)) ∧ (∀ n, Number mem 1 n → 10000 ≤ n % 2 ^ 16) ∨
    (∃ n, Number mem 0 n ∧ n.bmod (2 ^ 16) < -9999) ∧
      ∃ n, Number mem 1 n ∧ 1000 ≤ n % 2 ^ 16 ∧ n % 2 ^ 16 < 10000

theorem length_convert_revision_cases (r : Int16) :
    -9999 ≤ r.toInt ∧ (convert shortMax r.toInt).length = 5 ∨
      r.toInt < -9999 ∧ (convert shortMax r.toInt).length = 6 := by
  rcases le_or_gt (-9999) r.toInt with hfits | hlong
  · exact Or.inl ⟨hfits, (length_convert_revision_iff r).2 hfits⟩
  rcases revision_cases r with ⟨n, hr, -⟩ | ⟨n, hr, hpos, hn⟩
  · omega
  have hfour := length_digits_le_iff (n := n) (k := 4) (by decide)
  have hfive := length_digits_le_iff (n := n) (k := 5) (by decide)
  refine Or.inr ⟨hlong, ?_⟩
  rw [hr, convert_neg _ hpos, length_digits_shortMax]
  simp only [List.length_append, List.length_replicate, List.length_cons]
  omega

end Header

/-- A request header is written in 25 bytes if the revision takes five characters and the
code five, or six and four. -/
theorem HeaderRequest.size_eq_iff (h : HeaderRequest) : h.size = 25 ↔
    -9999 ≤ h.revision.toInt ∧ 10000 ≤ h.opCode.toNat ∨
      h.revision.toInt < -9999 ∧ 1000 ≤ h.opCode.toNat ∧ h.opCode.toNat < 10000 := by
  have hcode := h.opCode.toNat_lt
  have hthree := length_digits_le_iff (n := h.opCode.toNat) (k := 3) (by decide)
  have hfour := length_digits_le_iff (n := h.opCode.toNat) (k := 4) (by decide)
  have hfive := length_digits_le_iff (n := h.opCode.toNat) (k := 5) (by decide)
  rw [size]
  simp only [Header.length_convert_bufferSize]
  rcases Header.length_convert_revision_cases h.revision with ⟨hrev, hlen⟩ | ⟨hrev, hlen⟩ <;>
    omega

theorem HeaderRequest.size_le (h : HeaderRequest) : h.size ≤ 26 := by
  have hcode := h.opCode.toNat_lt
  have hfive := length_digits_le_iff (n := h.opCode.toNat) (k := 5) (by decide)
  rw [size]
  simp only [Header.length_convert_bufferSize]
  rcases Header.length_convert_revision_cases h.revision with ⟨-, hlen⟩ | ⟨-, hlen⟩ <;> omega

namespace Header

/-- The revision is its number, wrapped to sixteen bits. -/
theorem bmod_eq_revision {default h : Header} {mem : List UInt8} {n : ℤ}
    (hdecoded : ofBuffer default mem 25 = .ok h) (hn : Number mem 0 n) :
    n.bmod (2 ^ 16) = h.revision.toInt := by
  rw [((le_of_ofBuffer hdecoded).1 hn).2, Int16.toInt_ofInt]
  rfl

/-- The code is its number, wrapped to sixteen bits. -/
theorem emod_eq_code {default h : Header} {mem : List UInt8} {n : ℤ}
    (hdecoded : ofBuffer default mem 25 = .ok h) (hn : Number mem 1 n) :
    n % 2 ^ 16 = h.code.toNat := by
  rw [((le_of_ofBuffer hdecoded).2.1 hn).2, UInt16.ofInt, UInt16.toNat_ofNat']
  omega

/-- What holds of the number of a text that was read, as it is stored. -/
theorem exists_number_iff {mem : List UInt8} {i : ℕ} {stored : ℤ → ℤ} {v : ℤ} {P : ℤ → Prop}
    (hstored : ∀ n, Number mem i n → stored n = v) (hread : ∃ n, Number mem i n) :
    (∃ n, Number mem i n ∧ P (stored n)) ↔ P v := by
  constructor
  · rintro ⟨n, hn, hP⟩
    exact hstored n hn ▸ hP
  · intro hP
    obtain ⟨n, hn⟩ := hread
    exact ⟨n, hn, (hstored n hn).symm ▸ hP⟩

end Header

namespace HeaderRequest

/-- The code was read, or its text starts behind the header and it is the default. -/
theorem opCode_cases {mem : List UInt8} {h : HeaderRequest} (h25 : ofBuffer mem 25 = .ok h) :
    (∃ n, Header.Number mem 1 n) ∨ (∀ n, ¬Header.Number mem 1 n) ∧ h.opCode = default.opCode := by
  have hdecoded := HeaderRequest.ofBuffer_eq_ok_iff.1 h25
  cases htext : (Header.texts mem 25)[1]? with
  | none =>
    refine Or.inr ⟨?_, (Header.eq_default_of_ofBuffer hdecoded).1 htext⟩
    rintro n ⟨text, hsome, -⟩
    rw [htext] at hsome
    cases hsome
  | some text =>
    obtain ⟨n, hn⟩ := Header.exists_number_of_ofBuffer hdecoded htext
    exact Or.inl ⟨n, text, htext, hn⟩

theorem five_digits_iff {mem : List UInt8} {h : HeaderRequest} (h25 : ofBuffer mem 25 = .ok h) :
    (∀ n, Header.Number mem 1 n → 10000 ≤ n % 2 ^ 16) ↔ 10000 ≤ h.opCode.toNat := by
  have hcode : ∀ n, Header.Number mem 1 n → n % 2 ^ 16 = h.opCode.toNat := fun n =>
    Header.emod_eq_code (HeaderRequest.ofBuffer_eq_ok_iff.1 h25)
  rcases opCode_cases h25 with ⟨c, hc⟩ | ⟨hnone, hdefault⟩
  · constructor
    · intro hall
      have hle := hall c hc
      rw [hcode c hc] at hle
      exact_mod_cast hle
    · intro hle n hn
      rw [hcode n hn]
      exact_mod_cast hle
  · rw [hdefault]
    exact iff_of_true (fun n hn => absurd hn (hnone n)) (by decide)

theorem four_digits_iff {mem : List UInt8} {h : HeaderRequest} (h25 : ofBuffer mem 25 = .ok h) :
    (∃ n, Header.Number mem 1 n ∧ 1000 ≤ n % 2 ^ 16 ∧ n % 2 ^ 16 < 10000) ↔
      1000 ≤ h.opCode.toNat ∧ h.opCode.toNat < 10000 := by
  have hcode : ∀ n, Header.Number mem 1 n → n % 2 ^ 16 = h.opCode.toNat := fun n =>
    Header.emod_eq_code (HeaderRequest.ofBuffer_eq_ok_iff.1 h25)
  rcases opCode_cases h25 with hread | ⟨hnone, hdefault⟩
  · rw [Header.exists_number_iff (P := fun c => 1000 ≤ c ∧ c < 10000) hcode hread]
    omega
  · rw [hdefault]
    exact iff_of_false (fun ⟨n, hn, _⟩ => hnone n hn) (by decide)

/-- The size of a decoded header, by the numbers it was decoded from. -/
theorem size_iff_tenCharacters {mem : List UInt8} {h : HeaderRequest}
    (h25 : ofBuffer mem 25 = .ok h) : h.size = 25 ↔ Header.TenCharacters mem := by
  have hdecoded := HeaderRequest.ofBuffer_eq_ok_iff.1 h25
  have hrevision : ∀ n, Header.Number mem 0 n → n.bmod (2 ^ 16) = h.revision.toInt := fun n =>
    Header.bmod_eq_revision hdecoded
  have hread : ∃ n, Header.Number mem 0 n := by
    obtain ⟨n, hn⟩ := Header.exists_number_of_ofBuffer hdecoded (i := 0) rfl
    exact ⟨n, _, rfl, hn⟩
  rw [size_eq_iff, Header.TenCharacters, five_digits_iff h25, four_digits_iff h25,
    Header.exists_number_iff hrevision hread,
    Header.exists_number_iff (P := fun r => r < -9999) hrevision hread]

end HeaderRequest

/-! ## The body -/

namespace Body

theorem terminated_drop {bytes : List UInt8} (h : Terminated bytes) (k : ℕ) :
    Terminated (bytes.drop k) := by
  rw [Terminated, List.getLast?_drop]
  split
  · simp
  · exact h

/-- The body that starts at another index is not the one behind the header. -/
theorem ofBuffer_drop_iff {bytes : List UInt8} (hnul : Terminated (bytes.drop 25))
    (h25 : 25 ≤ bytes.length) (hlt : bytes.length < 2 ^ 63) {k : ℕ} (hk : k < 2 ^ 63)
    (after beyond : List UInt8) :
    ofBuffer ((bytes ++ after).drop k) (toSize ((bytes.length : ℤ) - k)) =
      ofBuffer (bytes.drop 25 ++ beyond) (bytes.drop 25).length ↔ k = 25 := by
  have hbehind := size_ofBuffer hnul beyond
  rcases le_or_gt k bytes.length with hle | hover
  · have hrest : toSize ((bytes.length : ℤ) - k) = (bytes.drop k).length := by
      rw [toSize, List.length_drop]
      omega
    rw [hrest, List.drop_append_of_le_length hle]
    rcases lt_trichotomy k 25 with hbefore | rfl | hafter
    · refine iff_of_false (fun heq => ?_) hbefore.ne
      have hleast := le_size_ofBuffer (bytes.drop k ++ after) (bytes.drop k).length
      rw [heq, hbehind, List.length_drop, List.length_drop] at hleast
      omega
    · rw [ofBuffer_append hnul, ofBuffer_append hnul]
      exact iff_of_true rfl rfl
    · refine iff_of_false (fun heq => ?_) hafter.ne'
      have hsize := size_ofBuffer
        (by simpa [Nat.add_sub_of_le hafter.le] using terminated_drop hnul (k - 25)) after
      rw [heq, hbehind, List.length_drop, List.length_drop] at hsize
      omega
  · -- the difference wraps around
    refine iff_of_false (fun heq => ?_) (by omega)
    have hleast := le_size_ofBuffer ((bytes ++ after).drop k) (toSize ((bytes.length : ℤ) - k))
    rw [heq, hbehind, List.length_drop, toSize] at hleast
    omega

end Body

/-! ## The two decoders -/

namespace InputConnection

theorem onHeader_eq_ok_iff {c c' : InputConnection} {mem : List UInt8} :
    c.onHeader mem = .ok c' ↔
      ∃ header, HeaderRequest.ofBuffer mem 25 = .ok header ∧ c' = c.readBody header := by
  rw [onHeader, bind_eq_ok]
  exact exists_congr fun header => and_congr_right fun _ => by rw [Except.ok.injEq, eq_comm]

/-- The first request the loop delivers is the header of the first 25 bytes and the body
of as many as it says. -/
theorem serve_eq_cons {beyond : ℕ → List UInt8} {bytes left : List UInt8} {r : Request}
    {rs : List Request} {c : InputConnection}
    (h : serve beyond 0 InputConnection.new bytes = .ok (r :: rs, c, left)) :
    25 ≤ bytes.length ∧ HeaderRequest.ofBuffer (bytes.take 25 ++ beyond 0) 25 = .ok r.header ∧
      r.body = Body.ofBuffer ((bytes.drop 25).take r.header.bufferSize.toNat ++ beyond 1)
        r.header.bufferSize.toNat := by
  rcases lt_or_ge bytes.length 25 with hshort | h25
  · rw [serve_short hshort] at h
    simp at h
  cases hheader : InputConnection.new.onHeader (bytes.take 25 ++ beyond 0) with
  | error e =>
    rw [serve_error rfl h25 hheader] at h
    simp at h
  | ok c' =>
    obtain ⟨header, hdecoded, rfl⟩ := onHeader_eq_ok_iff.1 hheader
    rw [serve_header rfl h25 hheader] at h
    rcases lt_or_ge (bytes.drop 25).length header.bufferSize.toNat with hshort | hle
    · rw [serve_short hshort] at h
      simp at h
    rw [serve_body rfl (show _ = header.bufferSize.toNat from rfl) hle, map_eq_ok] at h
    obtain ⟨served, -, hserved⟩ := h
    obtain ⟨rfl, -⟩ := List.cons.inj (Prod.mk.inj hserved).1
    exact ⟨h25, hdecoded, rfl⟩

end InputConnection

/-- On every buffer the loop reads as one message, the constructor succeeds with the same
header and the same strings if and only if the numbers in the header's 25 bytes are
written in ten characters, as they are stored, and are the same numbers continued by the
rest of the buffer. -/
theorem oneShot_iff {beyond : ℕ → List UInt8} {bytes : List UInt8} {r : Request}
    {c : InputConnection} (hserve : serve beyond 0 InputConnection.new bytes = .ok ([r], c, []))
    (hlength : bytes.length = 25 + r.header.bufferSize.toNat)
    (hnul : Body.Terminated (bytes.drop 25)) (after : List UInt8) :
    (∃ r', Request.ofBuffer (bytes ++ after) bytes.length = .ok r' ∧ r'.header = r.header ∧
        r'.body.content = r.body.content) ↔
      Header.SameNumbers (bytes.take 25 ++ beyond 0) (bytes ++ after) ∧
        Header.TenCharacters (bytes.take 25 ++ beyond 0) := by
  obtain ⟨h25, hheader, hbody⟩ := serve_eq_cons hserve
  have hsize := r.header.bufferSize.toNat_lt
  have hdrop : (bytes.drop 25).length = r.header.bufferSize.toNat := by
    rw [List.length_drop]
    omega
  rw [← hdrop, List.take_length] at hbody
  have hdecoded := HeaderRequest.ofBuffer_eq_ok_iff.1 hheader
  have hagree : ∀ j < 25, (bytes.take 25 ++ beyond 0)[j]? = (bytes ++ after)[j]? := by
    intro j hj
    rw [List.getElem?_append_left (by rw [List.length_take]; omega), List.getElem?_take_of_lt hj,
      List.getElem?_append_left (by omega)]
  -- with a text missing, the body size is the default and there is no body
  have hall : bytes.length = 25 ∨ 3 ≤ (Header.texts (bytes.take 25 ++ beyond 0) 25).length := by
    rw [or_iff_not_imp_right, not_le]
    intro hmissing
    have hdefault : r.header.bufferSize = HeaderRequest.default.bufferSize :=
      (Header.eq_default_of_ofBuffer hdecoded).2
        (List.getElem?_eq_none (Nat.le_of_lt_succ hmissing))
    rw [hlength, hdefault]
    decide
  have hheader_iff := Header.ofBuffer_iff_sameNumbers hagree h25 hall hdecoded
  have hbody_iff := Body.ofBuffer_drop_iff hnul h25 (by omega)
    (r.header.size_le.trans_lt (by decide)) after (beyond 1)
  rw [← hbody, HeaderRequest.size_iff_tenCharacters hheader] at hbody_iff
  rw [← hheader_iff, ← hbody_iff, ← HeaderRequest.ofBuffer_eq_ok_iff]
  constructor
  · rintro ⟨r', hr', hsame, hcontent⟩
    obtain ⟨hheader', hbody'⟩ := Request.ofBuffer_eq_ok_iff.1 hr'
    rw [hsame] at hheader' hbody'
    exact ⟨hheader', hbody'.symm.trans (Body.ext_content hcontent)⟩
  · rintro ⟨hheader', hbody'⟩
    exact ⟨r, Request.ofBuffer_eq_ok_iff.2 ⟨hheader', hbody'.symm⟩, rfl, rfl⟩

/-- A message of the client, whose texts end within the header. -/
theorem oneShot_iff_clientConnect :
    ((∃ r', Request.ofBuffer ((makeRequest .clientConnect [lit "ada"]).bytes ++ [])
        (makeRequest .clientConnect [lit "ada"]).bytes.length = .ok r' ∧
      r'.header = (makeRequest .clientConnect [lit "ada"]).header ∧
      r'.body.content = (makeRequest .clientConnect [lit "ada"]).body.content) ↔
    Header.SameNumbers ((makeRequest .clientConnect [lit "ada"]).bytes.take 25 ++ [])
        ((makeRequest .clientConnect [lit "ada"]).bytes ++ []) ∧
      Header.TenCharacters ((makeRequest .clientConnect [lit "ada"]).bytes.take 25 ++ [])) ∧
    Header.SameNumbers ((makeRequest .clientConnect [lit "ada"]).bytes.take 25 ++ [])
      ((makeRequest .clientConnect [lit "ada"]).bytes ++ []) := by
  have hone : serve (fun _ => []) 0 InputConnection.new
      ((makeRequest .clientConnect [lit "ada"]).bytes ++ []) = .ok ([makeRequest .clientConnect
        [lit "ada"]], ⟨.header, (makeRequest .clientConnect [lit "ada"]).header⟩, []) := by
    rw [serve_bytes rfl (plain_makeRequest _ (by decide +kernel))
      (bufferSize_makeRequest _ (by decide +kernel)) (by decide +kernel), serve_nil rfl]
    rfl
  rw [List.append_nil] at hone
  refine ⟨oneShot_iff hone (by decide +kernel) (by decide +kernel) [], ?_⟩
  have hdecoded := HeaderRequest.ofBuffer_eq_ok_iff.1 (serve_eq_cons hone).2.1
  rw [List.append_nil]
  nth_rewrite 2 [← List.take_append_drop 25 (makeRequest .clientConnect [lit "ada"]).bytes]
  exact Header.sameNumbers_of_ended (by decide +kernel) hdecoded (Or.inl (by decide +kernel)) _

/-- A header whose code is `7`, padded to five digits. -/
def paddedCode : List UInt8 :=
  0x2A :: 0 :: (lit "00001" ++ 0 :: (lit "00007" ++ 0 :: (lit "0000000000" ++ [0])))

/-- The loop reads an empty message. Written again the code takes one digit, so the
constructor starts the body four bytes early and finds the end of the header there. -/
theorem oneShot_disagrees : ∃ r c,
    serve (fun _ => []) 0 InputConnection.new paddedCode = .ok ([r], c, []) ∧
    paddedCode.length = 25 + r.header.bufferSize.toNat ∧ Body.Terminated (paddedCode.drop 25) ∧
    ¬∃ r', Request.ofBuffer paddedCode paddedCode.length = .ok r' ∧ r'.header = r.header ∧
      r'.body.content = r.body.content := by
  refine ⟨⟨⟨0x2A, 1, 7, 0⟩, Body.empty⟩, ⟨.header, ⟨0x2A, 1, 7, 0⟩⟩, ?_, by decide +kernel,
    by decide +kernel, ?_⟩
  · have hheader : InputConnection.new.onHeader (paddedCode.take 25 ++ []) =
        .ok ⟨.body, ⟨0x2A, 1, 7, 0⟩⟩ := by decide +kernel
    have hempty : Body.ofBuffer [] 0 = Body.empty := Body.ofBufferFrom_of_le le_rfl
    have hread : serve (fun _ => []) 0 InputConnection.new paddedCode =
        serve (fun _ => []) 1 ⟨.body, ⟨0x2A, 1, 7, 0⟩⟩ (paddedCode.drop 25) :=
      serve_header rfl (by decide +kernel) hheader
    rw [hread, show paddedCode.drop 25 = [] by decide +kernel,
      serve_body rfl rfl (Nat.zero_le _), List.drop_nil, serve_nil rfl]
    exact congrArg (fun b => Except.ok ([Request.mk ⟨0x2A, 1, 7, 0⟩ b], _, [])) hempty
  · have hone : Request.ofBuffer paddedCode 25 =
        .ok ⟨⟨0x2A, 1, 7, 0⟩, Body.ofList [lit "000"]⟩ := by decide +kernel
    rintro ⟨r', hr', -, hcontent⟩
    obtain rfl := Except.ok.inj (hr'.symm.trans hone)
    revert hcontent
    decide +kernel

end SpaceBattle
