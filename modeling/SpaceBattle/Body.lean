import SpaceBattle.Lib.Buffer
import SpaceBattle.DataUtils

/-!
# Message bodies

A body is a list of strings with a cached length. Every constructor of `body.cpp` adds
the strings one by one, and with each its size and one for the NUL, so the cached length
is carried with its proof (`bodyLength_eq`).

`data` writes each string and a NUL, at a running index : the assignments of one
contiguous write of `Body.bytes` (`data_eq`). `ofBuffer` scans a buffer for strings; the
scan bounds the start of a string, and the string ends at the first NUL of the memory,
inside the buffer or not. It undoes `bytes` on NUL-free strings (`ofBuffer_bytes`).
-/

namespace SpaceBattle

open Cpp Buffer

/-- `Body` : the strings, and the length of their encoding. -/
structure Body where
  /-- `m_body`. -/
  content : List Str
  /-- `m_body_length`. -/
  bodyLength : ℕ
  bodyLength_eq : bodyLength = (content.map fun s => s.length + 1).sum
  deriving DecidableEq

namespace Body

theorem ext_content {b b' : Body} (h : b.content = b'.content) : b = b' := by
  obtain ⟨c, n, hn⟩ := b
  obtain ⟨c', n', hn'⟩ := b'
  obtain rfl : c = c' := h
  obtain rfl : n = n' := hn.trans hn'.symm
  rfl

/-! ## Constructors -/

/-- The value-initialised body of `Body() = default`. -/
def empty : Body :=
  ⟨[], 0, rfl⟩

/-- One turn of the constructors' loops. -/
def pushBack (b : Body) (s : Str) : Body :=
  ⟨b.content ++ [s], b.bodyLength + (s.length + 1), by simp [b.bodyLength_eq]⟩

/-- `Body(std::initializer_list)` and `Body(const std::vector &)`. -/
def ofList (strings : List Str) : Body :=
  strings.foldl pushBack empty

/-- The loop of `Body(const char *, std::size_t)` from index `i`. -/
def ofBufferFrom (mem : List UInt8) (bufferLength i : ℕ) (b : Body) : Body :=
  if i < bufferLength then
    let str := cstr mem i
    ofBufferFrom mem bufferLength (i + (str.length + 1)) (b.pushBack str)
  else b
termination_by bufferLength - i

theorem ofBufferFrom_of_lt {mem : List UInt8} {bufferLength i : ℕ} {b : Body}
    (h : i < bufferLength) : ofBufferFrom mem bufferLength i b =
      ofBufferFrom mem bufferLength (i + ((cstr mem i).length + 1)) (b.pushBack (cstr mem i)) := by
  rw [ofBufferFrom, if_pos h]

theorem ofBufferFrom_of_le {mem : List UInt8} {bufferLength i : ℕ} {b : Body}
    (h : bufferLength ≤ i) : ofBufferFrom mem bufferLength i b = b := by
  rw [ofBufferFrom, if_neg (by omega)]

/-- `Body(const char *buffer, std::size_t buffer_length)`, `mem` the memory from
`buffer` on. -/
def ofBuffer (mem : List UInt8) (bufferLength : ℕ) : Body :=
  ofBufferFrom mem bufferLength 0 empty

def size (b : Body) : ℕ :=
  b.bodyLength

@[simp] theorem content_empty : empty.content = [] :=
  rfl

@[simp] theorem content_pushBack (b : Body) (s : Str) : (b.pushBack s).content = b.content ++ [s] :=
  rfl

theorem content_foldl_pushBack : ∀ (strings : List Str) (b : Body),
    (strings.foldl pushBack b).content = b.content ++ strings
  | [], b => by simp
  | s :: strings, b => by simp [content_foldl_pushBack strings (b.pushBack s)]

@[simp] theorem content_ofList (strings : List Str) : (ofList strings).content = strings := by
  simp [ofList, content_foldl_pushBack]

/-! ## The encoding -/

/-- The encoding of a list of strings : each followed by a NUL. -/
def encode (strings : List Str) : List UInt8 :=
  strings.flatMap fun s => s ++ [0]

@[simp] theorem encode_nil : encode [] = [] :=
  rfl

@[simp] theorem encode_cons (s : Str) (strings : List Str) :
    encode (s :: strings) = s ++ 0 :: encode strings := by
  simp [encode]

theorem length_encode (strings : List Str) :
    (encode strings).length = (strings.map fun s => s.length + 1).sum := by
  simp [encode, List.length_flatMap]

/-- The encoding of the body's strings. -/
def bytes (b : Body) : List UInt8 :=
  encode b.content

/-- The cached length is the length of the encoding. -/
theorem length_bytes (b : Body) : b.bytes.length = b.size := by
  rw [bytes, length_encode, size, b.bodyLength_eq]

/-- The loops of `data` from index `i`. -/
def dataFrom : ℕ → List Str → List (ℕ × UInt8)
  | _, [] => []
  | i, s :: strings => copy i s ++ (i + s.length, 0) :: dataFrom (i + s.length + 1) strings

/-- `Body::data`. -/
def data (b : Body) : List (ℕ × UInt8) :=
  dataFrom 0 b.content

theorem dataFrom_eq : ∀ (i : ℕ) (strings : List Str), dataFrom i strings = copy i (encode strings)
  | _, [] => rfl
  | i, s :: strings => by
    rw [dataFrom, dataFrom_eq (i + s.length + 1) strings, encode_cons, copy_append, copy]

/-- `data` writes the encoding from index `0` on. -/
theorem data_eq (b : Body) : b.data = copy 0 b.bytes :=
  dataFrom_eq 0 b.content

/-! ## Decoding -/

/-- From the start of a string, the scan reads the strings up to the end of the buffer. -/
theorem ofBufferFrom_encode (beyond : List UInt8) :
    ∀ (strings : List Str) (pre : List UInt8) (b : Body), (∀ s ∈ strings, 0 ∉ s) →
      ofBufferFrom (pre ++ (encode strings ++ beyond)) (pre.length + (encode strings).length)
        pre.length b = strings.foldl pushBack b
  | [], pre, b, _ => by
    rw [ofBufferFrom_of_le (by simp)]
    rfl
  | s :: strings, pre, b, hs => by
    have hstr : cstr (pre ++ (encode (s :: strings) ++ beyond)) pre.length = s := by
      rw [encode_cons, List.append_assoc, List.cons_append]
      exact cstr_append pre (hs s (by simp)) _
    have hmem : pre ++ (encode (s :: strings) ++ beyond) =
        (pre ++ (s ++ [0])) ++ (encode strings ++ beyond) := by simp
    have hnext : pre.length + (s.length + 1) = (pre ++ (s ++ [0])).length := by simp
    have hend : pre.length + (encode (s :: strings)).length =
        (pre ++ (s ++ [0])).length + (encode strings).length := by
      simp only [encode_cons, List.length_append, List.length_cons, List.length_nil]
      omega
    rw [ofBufferFrom_of_lt (by simp), hstr, hnext, hend, hmem, List.foldl_cons]
    exact ofBufferFrom_encode beyond strings _ _ fun t ht => hs t (by simp [ht])

/-- Decoding undoes encoding on NUL-free strings, whatever follows the buffer. -/
theorem ofBuffer_bytes (b : Body) (h : ∀ s ∈ b.content, 0 ∉ s) (beyond : List UInt8) :
    ofBuffer (b.bytes ++ beyond) b.size = b := by
  have hscan := ofBufferFrom_encode beyond b.content [] empty h
  rw [List.nil_append, List.length_nil, Nat.zero_add] at hscan
  refine ext_content ?_
  rw [ofBuffer, ← length_bytes, bytes, hscan, content_foldl_pushBack, content_empty,
    List.nil_append]

theorem zero_notMem_ofBufferFrom (mem : List UInt8) (bufferLength i : ℕ) (b : Body)
    (hb : ∀ s ∈ b.content, 0 ∉ s) : ∀ s ∈ (ofBufferFrom mem bufferLength i b).content, 0 ∉ s := by
  fun_induction ofBufferFrom mem bufferLength i b with
  | case1 i b _ str ih =>
    refine ih fun s hs => ?_
    rw [content_pushBack] at hs
    rcases List.mem_append.1 hs with hs | hs
    · exact hb s hs
    · rw [List.mem_singleton.1 hs]
      exact zero_notMem_cstr mem i
  | case2 => exact hb

/-- A decoded string never holds a NUL. -/
theorem zero_notMem_ofBuffer {mem : List UInt8} {bufferLength : ℕ} {s : Str}
    (hs : s ∈ (ofBuffer mem bufferLength).content) : 0 ∉ s :=
  zero_notMem_ofBufferFrom mem bufferLength 0 empty (by simp) s hs

end Body

end SpaceBattle
