import SpaceBattle.Reads
import Mathlib.Logic.Equiv.Defs

/-!
# Bodies are their bytes

A byte sequence that is empty or ends with a NUL is the encoding of exactly one list of
NUL-free strings (`exists_encode`), so decoding it and encoding it again gives it back.
`Wire` and `Content` are the two sides, `decode` and `encoded` the ways between them, and
`wireEquiv` the bijection. `body_canonical` : whatever the memory holds behind the
buffer, the three constructors build the same body on corresponding inputs.
-/

namespace SpaceBattle

open Cpp Buffer

namespace Body

/-- The bytes are empty or end with a NUL. -/
def Terminated (bytes : List UInt8) : Prop :=
  ∀ b ∈ bytes.getLast?, b = 0

instance (bytes : List UInt8) : Decidable (Terminated bytes) :=
  inferInstanceAs (Decidable (∀ b ∈ bytes.getLast?, b = 0))

/-- `Body(const std::vector<std::string> &)`, the loop of the list constructor again. -/
def ofVector (body : List Str) : Body :=
  body.foldl pushBack empty

theorem ofVector_eq (body : List Str) : ofVector body = ofList body :=
  rfl

theorem terminated_encode (strings : List Str) : Terminated (encode strings) := by
  induction strings with
  | nil => simp [Terminated]
  | cons s strings ih =>
    rw [Terminated, encode_cons, forall_getLast?_closed]
    exact ih

/-- Bytes that end with a NUL are the encoding of their strings. -/
theorem exists_encode {bytes : List UInt8} (h : Terminated bytes) :
    ∃ strings, (∀ s ∈ strings, 0 ∉ s) ∧ encode strings = bytes := by
  induction bytes using nul_induction with
  | open_ w hw =>
    obtain rfl := (forall_getLast?_of_notMem hw).1 h
    exact ⟨[], by simp, rfl⟩
  | closed s w hs ih =>
    obtain ⟨strings, hnul, rfl⟩ := ih ((forall_getLast?_closed s w).1 h)
    exact ⟨s :: strings, List.forall_mem_cons.2 ⟨hs, hnul⟩, encode_cons s strings⟩

/-- Decoding undoes the list constructor and `data`, whatever follows. -/
theorem ofBuffer_encode {strings : List Str} (h : ∀ s ∈ strings, 0 ∉ s) (beyond : List UInt8) :
    ofBuffer (encode strings ++ beyond) (encode strings).length = ofList strings := by
  have hlist := ofBuffer_bytes (ofList strings) (by simpa using h) beyond
  rwa [← length_bytes, bytes, content_ofList] at hlist

/-- What follows bytes that end with a NUL is not read. -/
theorem ofBuffer_append {bytes : List UInt8} (h : Terminated bytes) (beyond : List UInt8) :
    ofBuffer (bytes ++ beyond) bytes.length = ofBuffer bytes bytes.length := by
  obtain ⟨strings, hnul, rfl⟩ := exists_encode h
  have hnone := ofBuffer_encode hnul []
  rw [List.append_nil] at hnone
  rw [ofBuffer_encode hnul beyond, hnone]

/-- Encoding undoes decoding on bytes that end with a NUL. -/
theorem bytes_ofBuffer {bytes : List UInt8} (h : Terminated bytes) :
    (ofBuffer bytes bytes.length).bytes = bytes := by
  obtain ⟨strings, hnul, rfl⟩ := exists_encode h
  rw [← ofBuffer_append (terminated_encode strings) [], ofBuffer_encode hnul, Body.bytes,
    content_ofList]

/-- A body is as long as its buffer if that is empty or ends with a NUL. -/
theorem size_ofBuffer {bytes : List UInt8} (h : Terminated bytes) (beyond : List UInt8) :
    (ofBuffer (bytes ++ beyond) bytes.length).size = bytes.length := by
  rw [ofBuffer_append h, ← length_bytes, bytes_ofBuffer h]

theorem ofList_content (b : Body) : ofList b.content = b :=
  ext_content (content_ofList b.content)

/-! ## The two sides -/

/-- A byte sequence that is empty or ends with a NUL. -/
structure Wire where
  bytes : List UInt8
  terminated : Terminated bytes

/-- A list of NUL-free strings. -/
structure Content where
  strings : List Str
  nulFree : ∀ s ∈ strings, 0 ∉ s

/-- The strings the buffer constructor finds in the bytes. -/
def decode (w : Wire) : Content :=
  ⟨(ofBuffer w.bytes w.bytes.length).content, fun _ => zero_notMem_ofBuffer⟩

/-- The bytes `data` writes for the strings. -/
def encoded (c : Content) : Wire :=
  ⟨(ofList c.strings).bytes, terminated_encode _⟩

/-- Byte sequences and string lists correspond one to one. -/
def wireEquiv : Wire ≃ Content where
  toFun := decode
  invFun := encoded
  left_inv w := by
    obtain ⟨bytes, h⟩ := w
    simp only [encoded, decode, ofList_content, bytes_ofBuffer h]
  right_inv c := by
    obtain ⟨strings, h⟩ := c
    have hback := ofBuffer_encode h []
    rw [ofBuffer_append (terminated_encode strings)] at hback
    simp only [encoded, decode, Body.bytes, content_ofList, hback]

end Body

open Body

/-- Decoding bytes that are empty or end with a NUL : the size is their number, the
strings are NUL-free, `data` writes the bytes back, and the list constructors build the
same body from the strings. Decoding is a bijection to the lists of NUL-free strings, and
its inverse is what `data` writes for a list. -/
theorem body_canonical :
    (∀ (w : Wire) (beyond : List UInt8) (b : Body),
      b = Body.ofBuffer (w.bytes ++ beyond) w.bytes.length →
        b.size = w.bytes.length ∧ (∀ s ∈ b.content, 0 ∉ s) ∧
        (∀ dest : List UInt8, dest.length = b.size → store dest b.data = w.bytes) ∧
        Body.ofList b.content = b ∧ Body.ofVector b.content = b ∧
        b.content = (decode w).strings) ∧
    Function.Bijective decode ∧
    ∀ (c : Content) (beyond : List UInt8) (b : Body), b = Body.ofList c.strings →
      b = Body.ofVector c.strings ∧ b.content = c.strings ∧
      ∀ dest : List UInt8, dest.length = b.size →
        ∃ w : Wire, store dest b.data = w.bytes ∧ decode w = c ∧
          Body.ofBuffer (w.bytes ++ beyond) w.bytes.length = b := by
  refine ⟨?_, wireEquiv.bijective, ?_⟩
  · rintro w beyond b rfl
    have hbytes := bytes_ofBuffer w.terminated
    have hsize := size_ofBuffer w.terminated beyond
    rw [ofBuffer_append w.terminated] at hsize ⊢
    refine ⟨hsize, fun s => zero_notMem_ofBuffer, ?_, ofList_content _,
      (ofVector_eq _).trans (ofList_content _), rfl⟩
    intro dest hdest
    rw [data_eq, hbytes]
    exact store_copy (hdest.trans hsize)
  · rintro c beyond b rfl
    refine ⟨rfl, content_ofList _, ?_⟩
    intro dest hdest
    refine ⟨encoded c, ?_, wireEquiv.apply_symm_apply c, ?_⟩
    · rw [data_eq]
      exact store_copy (hdest.trans (length_bytes _).symm)
    · simp only [encoded, Body.bytes, content_ofList]
      exact ofBuffer_encode c.nulFree beyond

end SpaceBattle
