import Mathlib.Data.List.Forall2
import SpaceBattle.Lib.PrefixCode
import SpaceBattle.RoundTrips

/-!
# The encodings as codes

What a connection sends is one message after the other with nothing between them. Every
header can be told from its bytes, also one the decoder reads as another or refuses, since
its texts end with a NUL each; and the header says how long the body is. So the messages
are a prefix code, whatever the heap held in the gap behind a response's header.

`streams_selfDelimiting` : a stream cut anywhere holds the first messages and no others.
-/

namespace SpaceBattle

open Cpp Buffer HeaderUtility InformationTheory

/-! ## The header's texts -/

/-- A padded text has its number. -/
theorem HeaderUtility.convert_injective (max : ℕ) : Function.Injective (convert max) := by
  have hnumber {m n : ℕ} (h : digits m = digits n) : m = n := by
    rw [← number_digits m, h, number_digits]
  have hminus (n : ℕ) : 0x2D ∉ digits n := fun h => absurd (isDigit_of_mem_digits h) (by decide)
  have hzeros (k : ℕ) : (0x2D : UInt8) ∉ List.replicate k 0x30 := by simp
  -- only the text of a negative number has a minus
  have hsign (m : ℕ) {n : ℕ} (hn : 0 < n) : convert max m ≠ convert max (-n : ℤ) := by
    intro h
    have hmem : (0x2D : UInt8) ∈ convert max m := by
      rw [h, convert_neg max hn]
      simp
    rw [convert_natCast, List.mem_append] at hmem
    exact hmem.elim (hzeros _) (hminus _)
  have hcases (z : ℤ) : (∃ n : ℕ, z = n) ∨ ∃ n : ℕ, z = -n ∧ 0 < n := by
    rcases Int.eq_nat_or_neg z with ⟨n, rfl | rfl⟩
    · exact Or.inl ⟨n, rfl⟩
    · rcases Nat.eq_zero_or_pos n with rfl | hpos
      · exact Or.inl ⟨0, by simp⟩
      · exact Or.inr ⟨n, rfl, hpos⟩
  intro y z h
  rcases hcases y with ⟨m, rfl⟩ | ⟨m, rfl, hm⟩ <;> rcases hcases z with ⟨n, rfl⟩ | ⟨n, rfl, hn⟩
  · have htexts := congrArg number h
    rw [convert_natCast, convert_natCast, number_replicate_zero, number_replicate_zero,
      number_digits, number_digits] at htexts
    rw [htexts]
  · exact absurd h (hsign m hn)
  · exact absurd h.symm (hsign n hm)
  · rw [convert_neg max hm, convert_neg max hn] at h
    rw [hnumber ((List.append_cons_inj_of_notMem (hzeros _) (hminus _)).1 h).2.2]

/-- A text that ends with a NUL can be told from what follows. -/
theorem text_prefix {x y : Str} {p q : List UInt8} (hx : 0 ∉ x) (hy : 0 ∉ y)
    (hpre : x ++ 0 :: p <+: y ++ 0 :: q) : x = y ∧ p <+: q := by
  rw [List.append_cons, List.append_cons y] at hpre
  obtain ⟨hxy, -, hpq⟩ := (PrefixCode.terminated 0).of_append ⟨hx, rfl⟩ ⟨hy, rfl⟩ hpre
  exact ⟨hxy, hpq⟩

/-- Every header can be told from what follows. -/
theorem Header.bytes_prefix {h h' : Header} {p q : List UInt8}
    (hpre : h.bytes ++ p <+: h'.bytes ++ q) : h = h' ∧ p <+: q := by
  simp only [bytes, List.cons_append, List.append_assoc, List.nil_append,
    List.cons_prefix_cons] at hpre
  obtain ⟨hmagic, -, hpre⟩ := hpre
  obtain ⟨hrevision, hpre⟩ :=
    text_prefix (zero_notMem_convert_int16 _) (zero_notMem_convert_int16 _) hpre
  obtain ⟨hcode, hpre⟩ := text_prefix (zero_notMem_digits _) (zero_notMem_digits _) hpre
  obtain ⟨hsize, hpre⟩ := text_prefix (zero_notMem_convert _ _) (zero_notMem_convert _ _) hpre
  refine ⟨?_, hpre⟩
  obtain ⟨magic, revision, code, bufferSize⟩ := h
  obtain ⟨magic', revision', code', bufferSize'⟩ := h'
  obtain rfl : magic = magic' := hmagic
  obtain rfl : revision = revision' := Int16.toInt_inj.1 (convert_injective _ hrevision)
  obtain rfl : code = code' := UInt16.toNat_inj.1 (by
    rw [← number_digits code.toNat, hcode, number_digits])
  obtain rfl : bufferSize = bufferSize' :=
    UInt32.toNat_inj.1 (by exact_mod_cast convert_injective _ hsize)
  rfl

/-! ## Bodies -/

/-- A body of strings without NULs can be told from its bytes. -/
theorem Body.bytes_inj {b b' : Body} (h : ∀ s ∈ b.content, 0 ∉ s) (h' : ∀ s ∈ b'.content, 0 ∉ s)
    (heq : b.bytes = b'.bytes) : b = b' := by
  have hwords {strings : List Str} (hs : ∀ s ∈ strings, 0 ∉ s) :
      List.Forall₂ (fun s u => 0 ∉ s ∧ u = s ++ [0]) strings (strings.map fun s => s ++ [0]) := by
    rw [List.forall₂_map_right_iff, List.forall₂_same]
    exact fun s hmem => ⟨hs s hmem, rfl⟩
  refine Body.ext_content ((PrefixCode.terminated 0).eq_of_flatten (hwords h) (hwords h') ?_).1
  simpa only [bytes, encode, List.flatMap_def] using heq

/-! ## Messages -/

/-- The header says how long the body is, and the body's strings hold no NUL. -/
structure Framed (header : Header) (body : Body) : Prop where
  bufferSize : header.bufferSize.toNat = body.size
  content : ∀ s ∈ body.content, 0 ∉ s

/-- A framed request, as `write` stores it in some memory. -/
def Request.Written (r : Request) (u : List UInt8) : Prop :=
  Framed r.header.toHeader r.body ∧ ∃ heap, OutputConnection.write heap r = u

/-- A framed response, as `write` stores it in some memory. -/
def Response.Written (r : Response) (u : List UInt8) : Prop :=
  Framed r.header.toHeader r.body ∧ ∃ heap, InputConnection.write heap r = u

/-- A header, a gap as long as it tells and a body it measures can be told from what begins
with them. -/
theorem Framed.eq_of_prefix {h h' : Header} {b b' : Body} {gap gap' : List UInt8}
    (hb : Framed h b) (hb' : Framed h' b') (hgap : h = h' → gap.length = gap'.length)
    (hpre : h.bytes ++ gap ++ b.bytes <+: h'.bytes ++ gap' ++ b'.bytes) :
    h = h' ∧ b = b' ∧ gap = gap' := by
  rw [List.append_assoc, List.append_assoc] at hpre
  obtain ⟨hheader, rest, hrest⟩ := Header.bytes_prefix hpre
  rw [List.append_assoc] at hrest
  obtain ⟨hgaps, hbody⟩ := List.append_inj hrest (hgap hheader)
  have hsize : b.bytes.length = b'.bytes.length := by
    rw [b.length_bytes, b'.length_bytes, ← hb.bufferSize, ← hb'.bufferSize, hheader]
  obtain ⟨hbytes, -⟩ := List.append_inj (hbody.trans (List.append_nil _).symm) hsize
  exact ⟨hheader, Body.bytes_inj hb.content hb'.content hbytes, hgaps⟩

/-- What `make_request` makes of strings without NULs is framed. -/
theorem Request.written_makeRequest (heap : ℕ → UInt8) (opCode : OpCode) (body : List Str)
    (hsize : (Body.ofList body).size < 2 ^ 31) (hbody : ∀ s ∈ body, 0 ∉ s) :
    Written (makeRequest opCode body) (OutputConnection.write heap (makeRequest opCode body)) :=
  ⟨⟨bufferSize_makeRequest opCode hsize, by simpa [makeRequest] using hbody⟩, heap, rfl⟩

theorem Request.prefixCode_written : PrefixCode Written where
  ne_nil := by
    rintro r _ ⟨-, heap, rfl⟩
    rw [OutputConnection.write_eq]
    exact List.cons_ne_nil _ _
  eq_of_prefix := by
    rintro r r' _ _ ⟨hr, heap, rfl⟩ ⟨hr', heap', rfl⟩ hpre
    rw [OutputConnection.write_eq, OutputConnection.write_eq] at hpre ⊢
    have hbytes (r : Request) : r.bytes = r.header.toHeader.bytes ++ [] ++ r.body.bytes := by
      rw [List.append_nil]
      rfl
    rw [hbytes, hbytes] at hpre
    obtain ⟨hheader, hbody, -⟩ := hr.eq_of_prefix hr' (fun _ => rfl) hpre
    have heq : r = r' := congrArg₂ mk (congrArg HeaderRequest.ofHeader hheader) hbody
    exact ⟨heq, by rw [heq]⟩

theorem Response.prefixCode_written : PrefixCode Written where
  ne_nil := by
    rintro r _ ⟨-, heap, rfl⟩
    obtain ⟨gap, -, hbytes⟩ := InputConnection.exists_write_eq heap r
    rw [hbytes]
    exact List.cons_ne_nil _ _
  eq_of_prefix := by
    rintro r r' _ _ ⟨hr, heap, rfl⟩ ⟨hr', heap', rfl⟩ hpre
    obtain ⟨gap, hsize, hbytes⟩ := InputConnection.exists_write_eq heap r
    obtain ⟨gap', hsize', hbytes'⟩ := InputConnection.exists_write_eq heap' r'
    rw [hbytes, hbytes'] at hpre ⊢
    have hgap (h : r.header.toHeader = r'.header.toHeader) : gap.length = gap'.length := by
      have hheader : r.header = r'.header := congrArg HeaderResponse.ofHeader h
      rw [List.length_append, hheader] at hsize
      rw [List.length_append] at hsize'
      omega
    obtain ⟨hheader, hbody, hgaps⟩ := hr.eq_of_prefix hr' hgap hpre
    have heq : r = r' := congrArg₂ mk (congrArg HeaderResponse.ofHeader hheader) hbody
    exact ⟨heq, by rw [heq, hgaps]⟩

/-- A stream that begins another, of requests or of responses, is the first messages of the
other; no stream can be cut into messages in two ways. -/
theorem streams_selfDelimiting :
    (∀ {requests requests' : List Request} {us vs : List (List UInt8)},
      List.Forall₂ Request.Written requests us → List.Forall₂ Request.Written requests' vs →
        us.flatten <+: vs.flatten → requests <+: requests' ∧ us <+: vs) ∧
    (∀ {responses responses' : List Response} {us vs : List (List UInt8)},
      List.Forall₂ Response.Written responses us → List.Forall₂ Response.Written responses' vs →
        us.flatten <+: vs.flatten → responses <+: responses' ∧ us <+: vs) ∧
    UniquelyDecodable {u | ∃ r, Request.Written r u} ∧
    UniquelyDecodable {u | ∃ r, Response.Written r u} :=
  ⟨Request.prefixCode_written.prefix_of_flatten, Response.prefixCode_written.prefix_of_flatten,
    Request.prefixCode_written.uniquelyDecodable, Response.prefixCode_written.uniquelyDecodable⟩

/-- A connect request is the beginning of a stream with a leave request behind it, whatever
the heap held when each was written. -/
theorem streams_selfDelimiting_connect :
    [makeRequest .clientConnect [lit "ada"]] <+:
      [makeRequest .clientConnect [lit "ada"], makeRequest .leave []] := by
  have hada (heap : ℕ → UInt8) := Request.written_makeRequest heap .clientConnect [lit "ada"]
    (by decide) (by decide)
  have hleave := Request.written_makeRequest (fun _ => 9) .leave [] (by decide) (by decide)
  exact (streams_selfDelimiting.1 (.cons (hada fun _ => 7) .nil)
    (.cons (hada fun _ => 0) (.cons hleave .nil)) (by
      simp only [OutputConnection.write_eq, List.flatten_cons, List.flatten_nil, List.append_nil]
      exact List.prefix_append _ _)).1

end SpaceBattle
