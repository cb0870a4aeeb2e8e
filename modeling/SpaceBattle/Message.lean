import SpaceBattle.Body

/-!
# Headers, requests and responses

A request header and a response header have the same four fields and the same text
form : the magic byte, then the revision, the code and the body size as NUL-terminated
numerals. `Header` is that common part; `HeaderRequest` and `HeaderResponse` are its two
instances. They differ in the default code, and in `size` : the request counts the code's
numeral, the response the padded one, while both `data` write the numeral unpadded.

Decoding reads a C string from the buffer for each field whose start lies inside it
(`fillField`). `Header.exists_ofBuffer_iff` says which memories decode, by the texts they
hold. `Header.Plain.ofBuffer_bytes` : the encoding of a header with a five-digit code,
a non-negative revision and a body size below `2^31` is 25 bytes that decode to it,
whatever follows them in memory.
-/

namespace SpaceBattle

open Cpp Buffer HeaderUtility

/-! ## The common header -/

/-- The fields of both headers. -/
structure Header where
  magic : UInt8
  revision : Int16
  /-- `opCode` or `statusCode`, any 16-bit value. -/
  code : UInt16
  bufferSize : UInt32
  deriving DecidableEq

/-- `std::numeric_limits<short>::max()`. -/
def shortMax : ℕ :=
  32767

/-- `std::numeric_limits<unsigned short>::max()`. -/
def ushortMax : ℕ :=
  65535

/-- `std::numeric_limits<unsigned>::max()`. -/
def uintMax : ℕ :=
  4294967295

namespace Header

/-! ### Decoding -/

/-- The common shape of the `fill_` functions : a field that starts inside the buffer is
read from the C string there, a field that starts after it keeps its default. -/
def fillField {α : Type} (read : Str → Except Exn α) (mem : List UInt8) (bufferLength : ℕ)
    (old : α) (idx : ℕ) : Except Exn (α × ℕ) :=
  if bufferLength ≤ idx then .ok (old, idx)
  else do
    let str := cstr mem idx
    let value ← read str
    .ok (value, idx + (str.length + 1))

def readRevision (revStr : Str) : Except Exn Int16 := do
  let revNbr ← stoi revStr
  if (shortMax : ℤ) < revNbr then .error (.outOfRange "Error, revision number out of range")
  else .ok (Int16.ofInt revNbr)

def readCode (codeStr : Str) : Except Exn UInt16 := do
  let codeNbr ← stoi codeStr
  if (ushortMax : ℤ) < codeNbr then .error (.outOfRange "Error : Status code is out of range")
  else .ok (UInt16.ofInt codeNbr)

def readBufferSize (bufferSizeStr : Str) : Except Exn UInt32 := do
  let bufferSizeNbr ← stoi bufferSizeStr
  .ok (UInt32.ofInt bufferSizeNbr)

/-- The buffer constructors, `mem` the memory from `buffer` on and `default` the header
the initialisers build. -/
def ofBuffer (default : Header) (mem : List UInt8) (bufferLength : ℕ) : Except Exn Header :=
  if 0 < bufferLength then do
    let (revision, idx) ← fillField readRevision mem bufferLength default.revision 2
    let (code, idx) ← fillField readCode mem bufferLength default.code idx
    let (bufferSize, _) ← fillField readBufferSize mem bufferLength default.bufferSize idx
    .ok ⟨mem.headD 0, revision, code, bufferSize⟩
  else .ok default

/-! ### What decodes -/

/-- The text is a number an `int` holds, at most `max`. -/
def Numeral (max : ℤ) (text : Str) : Prop :=
  ∃ n, IntText text n ∧ IsInt n ∧ n ≤ max

/-- Each field from `idx` on that starts inside the buffer is a number within its bound.
After one that starts outside there is none inside. -/
def Numerals (mem : List UInt8) (bufferLength : ℕ) : ℕ → List ℤ → Prop
  | _, [] => True
  | idx, max :: maxs => bufferLength ≤ idx ∨ Numeral max (cstr mem idx) ∧
      Numerals mem bufferLength (idx + ((cstr mem idx).length + 1)) maxs

theorem numeral_iff {max : ℤ} {text : Str} :
    Numeral max text ↔ ∃ n, stoi text = .ok n ∧ n ≤ max := by
  simp only [Numeral, stoi_eq_ok_iff, and_assoc]

/-- The readers that refuse a number above their limit. -/
theorem within_eq_ok_iff {α : Type} {max : ℕ} {what : String} {cast : ℤ → α} {text : Str} {v : α} :
    (do
      let nbr ← stoi text
      if (max : ℤ) < nbr then .error (.outOfRange what) else .ok (cast nbr)) = .ok v ↔
      ∃ n, stoi text = .ok n ∧ n ≤ max ∧ cast n = v := by
  rw [bind_eq_ok]
  refine exists_congr fun n => and_congr_right fun _ => ?_
  rcases lt_or_ge (max : ℤ) n with hlt | hge
  · simp [hlt]
  · simp [not_lt.2 hge, hge]

theorem exists_within_iff {α : Type} {max : ℕ} {what : String} {cast : ℤ → α} {text : Str} :
    (∃ v, (do
      let nbr ← stoi text
      if (max : ℤ) < nbr then .error (.outOfRange what) else .ok (cast nbr)) = .ok v) ↔
      Numeral max text := by
  simp only [within_eq_ok_iff, numeral_iff]
  exact ⟨fun ⟨_, n, hn, hmax, _⟩ => ⟨n, hn, hmax⟩, fun ⟨n, hn, hmax⟩ => ⟨_, n, hn, hmax, rfl⟩⟩

theorem exists_readBufferSize_iff {text : Str} :
    (∃ v, readBufferSize text = .ok v) ↔ Numeral (2 ^ 31 - 1) text := by
  simp only [readBufferSize, bind_eq_ok, Numeral]
  refine ⟨fun ⟨_, n, hn, _⟩ => ?_,
    fun ⟨n, htext, hn, _⟩ => ⟨_, n, stoi_eq_ok_iff.2 ⟨htext, hn⟩, rfl⟩⟩
  obtain ⟨htext, hn⟩ := stoi_eq_ok_iff.1 hn
  have hlt := hn.2
  exact ⟨n, htext, hn, by omega⟩

theorem numerals_of_le {mem : List UInt8} {bufferLength idx : ℕ} (h : bufferLength ≤ idx) :
    ∀ maxs, Numerals mem bufferLength idx maxs
  | [] => trivial
  | _ :: _ => Or.inl h

/-- A field and what is decoded after it. -/
theorem exists_fillField_iff {α β : Type} {read : Str → Except Exn α} {max : ℤ} {maxs : List ℤ}
    (hread : ∀ text, (∃ v, read text = .ok v) ↔ Numeral max text) {mem : List UInt8}
    {bufferLength : ℕ} {next : α × ℕ → Except Exn β}
    (hnext : ∀ v idx, (∃ b, next (v, idx) = .ok b) ↔ Numerals mem bufferLength idx maxs)
    (old : α) (idx : ℕ) : (∃ b, (fillField read mem bufferLength old idx >>= next) = .ok b) ↔
      Numerals mem bufferLength idx (max :: maxs) := by
  rw [Numerals, ← hread]
  unfold fillField
  split
  · rename_i hle
    rw [ok_bind, hnext]
    exact ⟨fun _ => Or.inl hle, fun _ => numerals_of_le hle maxs⟩
  · rename_i hlt
    cases hv : read (cstr mem idx) with
    | error e => simp [hlt, hv]
    | ok v => simp [hlt, hv, hnext]

/-- The constructor throws unless the fields are numbers within their bounds. -/
theorem exists_ofBuffer_iff (default : Header) (mem : List UInt8) {bufferLength : ℕ}
    (hpos : 0 < bufferLength) : (∃ h, ofBuffer default mem bufferLength = .ok h) ↔
      Numerals mem bufferLength 2 [shortMax, ushortMax, 2 ^ 31 - 1] := by
  rw [ofBuffer, if_pos hpos]
  refine exists_fillField_iff (fun _ => exists_within_iff) (fun revision idx => ?_) _ _
  refine exists_fillField_iff (fun _ => exists_within_iff) (fun code idx => ?_) _ _
  refine exists_fillField_iff (fun _ => exists_readBufferSize_iff) (fun bufferSize idx => ?_) _ _
  exact ⟨fun _ => trivial, fun _ => ⟨_, rfl⟩⟩

/-! ### Encoding -/

/-- `data`, the same in both headers. -/
def data (h : Header) : List (ℕ × UInt8) :=
  let revisionStr := convert shortMax h.revision.toInt
  let codeStr := digits h.code.toNat
  let bufferSizeStr := convert uintMax h.bufferSize.toNat
  let revisionEnd := 2 + revisionStr.length
  let codeEnd := revisionEnd + 1 + codeStr.length
  let bufferSizeEnd := codeEnd + 1 + bufferSizeStr.length
  [(0, h.magic), (1, 0)] ++
    (copy 2 revisionStr ++ [(revisionEnd, 0)]) ++
    (copy (revisionEnd + 1) codeStr ++ [(codeEnd, 0)]) ++
    (copy (codeEnd + 1) bufferSizeStr ++ [(bufferSizeEnd, 0)])

/-- The bytes `data` writes, in order. -/
def bytes (h : Header) : List UInt8 :=
  h.magic :: 0 :: (convert shortMax h.revision.toInt ++
    0 :: (digits h.code.toNat ++ 0 :: (convert uintMax h.bufferSize.toNat ++ [0])))

/-- `data` is one contiguous write. -/
theorem data_eq (h : Header) : h.data = copy 0 h.bytes := by
  simp [data, bytes, copy, copy_append]

/-! ### Round trip -/

theorem fillField_text {α : Type} (read : Str → Except Exn α) (pre : List UInt8) {text : Str}
    (htext : 0 ∉ text) (post : List UInt8) (bufferLength : ℕ) (hlt : pre.length < bufferLength)
    (old : α) : fillField read (pre ++ (text ++ 0 :: post)) bufferLength old pre.length =
      (read text).map fun value => (value, (pre ++ (text ++ [0])).length) := by
  rw [fillField, if_neg (by omega), cstr_append pre htext post]
  cases hread : read text with
  | error e => simp [hread, Except.map]
  | ok value => simp [hread, Except.map]

/-- Decoding three NUL-terminated texts that start inside the buffer reads each of them,
whatever follows. -/
theorem ofBuffer_texts_eq_ok_iff (default h : Header) (magic : UInt8) {rev code size : Str}
    (hrev : 0 ∉ rev) (hcode : 0 ∉ code) (hsize : 0 ∉ size) (beyond : List UInt8)
    (bufferLength : ℕ) (hlen : 2 + (rev.length + 1) + (code.length + 1) < bufferLength) :
    ofBuffer default (magic :: 0 :: (rev ++ 0 :: (code ++ 0 :: (size ++ 0 :: beyond))))
      bufferLength = .ok h ↔
        h.magic = magic ∧ readRevision rev = .ok h.revision ∧ readCode code = .ok h.code ∧
          readBufferSize size = .ok h.bufferSize := by
  have hfirst := fillField_text readRevision [magic, 0] hrev (code ++ 0 :: (size ++ 0 :: beyond))
    bufferLength (by simp; omega) default.revision
  have hsecond := fillField_text readCode ([magic, 0] ++ (rev ++ [0])) hcode
    (size ++ 0 :: beyond) bufferLength (by simp; omega) default.code
  have hthird := fillField_text readBufferSize ([magic, 0] ++ (rev ++ [0]) ++ (code ++ [0])) hsize
    beyond bufferLength (by simp; omega) default.bufferSize
  simp only [List.cons_append, List.nil_append, List.append_assoc, List.length_cons,
    List.length_nil] at hfirst hsecond hthird
  rw [ofBuffer, if_pos (by omega), hfirst]
  cases hr : readRevision rev with
  | error e => simp [Except.map]
  | ok r =>
    simp only [Except.map, ok_bind]
    rw [hsecond]
    cases hc : readCode code with
    | error e => simp [Except.map]
    | ok c =>
      simp only [Except.map, ok_bind]
      rw [hthird]
      cases hn : readBufferSize size with
      | error e => simp [Except.map]
      | ok n =>
        obtain ⟨magic', r', c', n'⟩ := h
        simp [Except.map, eq_comm]

theorem readRevision_convert {r : Int16} (h : 0 ≤ r.toInt) :
    readRevision (convert shortMax r.toInt) = .ok r := by
  have hle := r.toInt_le
  obtain ⟨n, hn⟩ := Int.eq_ofNat_of_zero_le h
  have hmax : n ≤ shortMax := by
    simp only [Int16.toInt_maxValue, hn] at hle
    unfold shortMax
    omega
  have hback : Int16.ofInt (n : ℤ) = r := by rw [← hn, Int16.ofInt_toInt]
  have hs : stoi (convert shortMax (n : ℤ)) = .ok (n : ℤ) :=
    stoi_convert _ (by unfold shortMax at hmax; omega)
  rw [hn, readRevision, hs, ok_bind, if_neg (by omega), hback]

theorem readCode_digits (c : UInt16) : readCode (digits c.toNat) = .ok c := by
  have hc := c.toNat_lt_size
  simp only [UInt16.size] at hc
  have hs : stoi (digits c.toNat) = .ok (c.toNat : ℤ) := stoi_digits (by omega)
  rw [readCode, hs, ok_bind, if_neg (by unfold ushortMax; omega), ofInt_toNat_uint16]

theorem readBufferSize_convert {n : UInt32} (h : n.toNat < 2 ^ 31) :
    readBufferSize (convert uintMax n.toNat) = .ok n := by
  rw [readBufferSize, stoi_convert _ h, ok_bind, ofInt_toNat_uint32]

/-- A header both sides read back : a non-negative revision, a five-digit code and a
body size an `int` can hold. -/
structure Plain (h : Header) : Prop where
  revision : 0 ≤ h.revision.toInt
  code : 10000 ≤ h.code.toNat
  bufferSize : h.bufferSize.toNat < 2 ^ 31

theorem length_digits_code {c : UInt16} (h : 10000 ≤ c.toNat) : (digits c.toNat).length = 5 := by
  have hc := c.toNat_lt_size
  simp only [UInt16.size] at hc
  have hle := (length_digits_le_iff (n := c.toNat) (k := 5) (by decide)).2 (by omega)
  have hge : ¬(digits c.toNat).length ≤ 4 := fun hle =>
    absurd ((length_digits_le_iff (by decide)).1 hle) (by omega)
  omega

theorem length_convert_revision {r : Int16} (h : 0 ≤ r.toInt) :
    (convert shortMax r.toInt).length = 5 := by
  have hle := r.toInt_le
  obtain ⟨n, hn⟩ := Int.eq_ofNat_of_zero_le h
  simp only [Int16.toInt_maxValue, hn] at hle
  rw [hn, length_convert_natCast (show n ≤ shortMax by unfold shortMax; omega)]
  rfl

theorem length_convert_bufferSize (n : UInt32) : (convert uintMax n.toNat).length = 10 := by
  have hn := n.toNat_lt_size
  simp only [UInt32.size] at hn
  rw [length_convert_natCast (show n.toNat ≤ uintMax by unfold uintMax; omega)]
  rfl

/-- The length both read loops hard-code. -/
theorem Plain.length_bytes {h : Header} (hp : h.Plain) : h.bytes.length = 25 := by
  simp [bytes, length_convert_revision hp.revision, length_digits_code hp.code,
    length_convert_bufferSize]

theorem Plain.take_bytes {h : Header} (hp : h.Plain) (rest : List UInt8) :
    (h.bytes ++ rest).take 25 = h.bytes := by
  rw [← hp.length_bytes, List.take_left]

theorem Plain.drop_bytes {h : Header} (hp : h.Plain) (rest : List UInt8) :
    (h.bytes ++ rest).drop 25 = rest := by
  rw [← hp.length_bytes, List.drop_left]

theorem zero_notMem_convert_revision {r : Int16} (h : 0 ≤ r.toInt) :
    0 ∉ convert shortMax r.toInt := by
  obtain ⟨n, hn⟩ := Int.eq_ofNat_of_zero_le h
  rw [hn]
  exact zero_notMem_convert _ _

/-- The encoding of a plain header decodes to it, whatever follows. -/
theorem Plain.ofBuffer_bytes {h : Header} (hp : h.Plain) (default : Header)
    (beyond : List UInt8) : ofBuffer default (h.bytes ++ beyond) 25 = .ok h := by
  have htexts := (ofBuffer_texts_eq_ok_iff default h h.magic
    (zero_notMem_convert_revision hp.revision) (zero_notMem_digits h.code.toNat)
    (zero_notMem_convert uintMax h.bufferSize.toNat) beyond 25
    (by rw [length_convert_revision hp.revision, length_digits_code hp.code]; decide)).2
    ⟨rfl, readRevision_convert hp.revision, readCode_digits h.code,
      readBufferSize_convert hp.bufferSize⟩
  simpa [bytes] using htexts

end Header

/-! ## Request and response headers -/

/-- `HeaderRequest`. -/
structure HeaderRequest where
  magic : UInt8
  revision : Int16
  /-- The value of an `OpCode`, declared or not. -/
  opCode : UInt16
  bufferSize : UInt32
  deriving DecidableEq

namespace HeaderRequest

/-- The request header as a header. -/
def toHeader (h : HeaderRequest) : Header :=
  ⟨h.magic, h.revision, h.opCode, h.bufferSize⟩

def ofHeader (h : Header) : HeaderRequest :=
  ⟨h.magic, h.revision, h.code, h.bufferSize⟩

/-- `HeaderRequest()`. -/
def default : HeaderRequest :=
  ⟨defaultMagic, defaultRev, OpCode.clientDisconnect.code, defaultBufferSize⟩

/-- `HeaderRequest(const char *, std::size_t)`. -/
def ofBuffer (mem : List UInt8) (bufferLength : ℕ) : Except Exn HeaderRequest :=
  (Header.ofBuffer default.toHeader mem bufferLength).map ofHeader

/-- `HeaderRequest::size` : the code's numeral is counted unpadded. -/
def size (h : HeaderRequest) : ℕ :=
  let revisionStr := convert shortMax h.revision.toInt
  let opCodeStr := digits h.opCode.toNat
  let bufferSizeStr := convert uintMax h.bufferSize.toNat
  1 + revisionStr.length + opCodeStr.length + bufferSizeStr.length + 4

/-- `HeaderRequest::data`. -/
def data (h : HeaderRequest) : List (ℕ × UInt8) :=
  h.toHeader.data

/-- A request header's size is the length of what it writes. -/
theorem size_eq (h : HeaderRequest) : h.size = h.toHeader.bytes.length := by
  simp only [size, Header.bytes, toHeader, List.length_cons, List.length_append, List.length_nil]
  omega

/-- The constructor throws unless the fields are numbers within their bounds. -/
theorem exists_ofBuffer_iff (mem : List UInt8) {bufferLength : ℕ} (hpos : 0 < bufferLength) :
    (∃ h, ofBuffer mem bufferLength = .ok h) ↔
      Header.Numerals mem bufferLength 2 [shortMax, ushortMax, 2 ^ 31 - 1] := by
  rw [← Header.exists_ofBuffer_iff default.toHeader mem hpos, ofBuffer]
  cases Header.ofBuffer default.toHeader mem bufferLength <;> simp [Except.map]

theorem ofBuffer_bytes {h : HeaderRequest} (hp : h.toHeader.Plain) (beyond : List UInt8) :
    ofBuffer (h.toHeader.bytes ++ beyond) 25 = .ok h := by
  rw [ofBuffer, hp.ofBuffer_bytes]
  rfl

end HeaderRequest

/-- `HeaderResponse`. -/
structure HeaderResponse where
  magic : UInt8
  revision : Int16
  /-- The value of a `StatusCode`, declared or not. -/
  statusCode : UInt16
  bufferSize : UInt32
  deriving DecidableEq

namespace HeaderResponse

/-- The response header as a header. -/
def toHeader (h : HeaderResponse) : Header :=
  ⟨h.magic, h.revision, h.statusCode, h.bufferSize⟩

def ofHeader (h : Header) : HeaderResponse :=
  ⟨h.magic, h.revision, h.code, h.bufferSize⟩

/-- `HeaderResponse()`. -/
def default : HeaderResponse :=
  ⟨defaultMagic, defaultRev, StatusCode.ok.code, defaultBufferSize⟩

/-- `HeaderResponse(const char *, std::size_t)`. -/
def ofBuffer (mem : List UInt8) (bufferLength : ℕ) : Except Exn HeaderResponse :=
  (Header.ofBuffer default.toHeader mem bufferLength).map ofHeader

/-- `HeaderResponse::size` : the code's numeral is counted padded to five digits. -/
def size (h : HeaderResponse) : ℕ :=
  let revisionStr := convert shortMax h.revision.toInt
  let statusCodeStr := convert ushortMax h.statusCode.toNat
  let bufferSizeStr := convert uintMax h.bufferSize.toNat
  1 + revisionStr.length + statusCodeStr.length + bufferSizeStr.length + 4

/-- `HeaderResponse::data`. -/
def data (h : HeaderResponse) : List (ℕ × UInt8) :=
  h.toHeader.data

theorem length_convert_code (c : UInt16) : (convert ushortMax c.toNat).length = 5 := by
  have hc := c.toNat_lt_size
  simp only [UInt16.size] at hc
  rw [length_convert_natCast (show c.toNat ≤ ushortMax by unfold ushortMax; omega)]
  rfl

/-- A response header's size is the length of what it writes if the code has five
digits, which the padding of `size` presumes. -/
theorem size_eq {h : HeaderResponse} (hcode : 10000 ≤ h.statusCode.toNat) :
    h.size = h.toHeader.bytes.length := by
  simp only [size, Header.bytes, toHeader, List.length_cons, List.length_append, List.length_nil,
    length_convert_code, Header.length_digits_code hcode]
  omega

theorem ofBuffer_bytes {h : HeaderResponse} (hp : h.toHeader.Plain) (beyond : List UInt8) :
    ofBuffer (h.toHeader.bytes ++ beyond) 25 = .ok h := by
  rw [ofBuffer, hp.ofBuffer_bytes]
  rfl

end HeaderResponse

/-! ## Requests -/

/-- `Request`. -/
structure Request where
  header : HeaderRequest
  body : Body
  deriving DecidableEq

namespace Request

/-- `Request::data` : the body goes where the header's size says it ends. -/
def data (r : Request) : List (ℕ × UInt8) :=
  r.header.data ++ offset r.header.size r.body.data

def size (r : Request) : ℕ :=
  r.header.size + r.body.size

/-- The encoding of a request. -/
def bytes (r : Request) : List UInt8 :=
  r.header.toHeader.bytes ++ r.body.bytes

theorem length_bytes (r : Request) : r.bytes.length = r.size := by
  rw [bytes, List.length_append, Body.length_bytes, size, r.header.size_eq]

/-- `data` is one contiguous write of the encoding. -/
theorem data_eq (r : Request) : r.data = copy 0 r.bytes := by
  rw [data, HeaderRequest.data, Header.data_eq, Body.data_eq, offset_copy, bytes, copy_append,
    r.header.size_eq, Nat.zero_add, Nat.add_zero]

end Request

/-- `make_request`. -/
def makeRequest (opCode : OpCode) (body : List Str) : Request :=
  let b := Body.ofList body
  ⟨⟨defaultMagic, defaultRev, opCode.code, UInt32.ofNat b.size⟩, Body.ofList body⟩

theorem plain_makeRequest (opCode : OpCode) {body : List Str}
    (h : (Body.ofList body).size < 2 ^ 31) :
    (makeRequest opCode body).header.toHeader.Plain where
  revision := show 0 ≤ defaultRev.toInt by decide
  code := opCode.code_bounds.1
  bufferSize := by
    simp only [makeRequest, HeaderRequest.toHeader, UInt32.toNat_ofNat']
    omega

/-- The header says how long the encoded body is. -/
theorem bufferSize_makeRequest (opCode : OpCode) {body : List Str}
    (h : (Body.ofList body).size < 2 ^ 31) :
    (makeRequest opCode body).header.bufferSize.toNat = (makeRequest opCode body).body.size := by
  simp only [makeRequest, UInt32.toNat_ofNat']
  omega

/-! ## Responses -/

/-- `Response`. -/
structure Response where
  header : HeaderResponse
  body : Body
  deriving DecidableEq

namespace Response

/-- `Response::data`. -/
def data (r : Response) : List (ℕ × UInt8) :=
  r.header.data ++ offset r.header.size r.body.data

def size (r : Response) : ℕ :=
  r.header.size + r.body.size

/-- The encoding of a response. -/
def bytes (r : Response) : List UInt8 :=
  r.header.toHeader.bytes ++ r.body.bytes

theorem length_bytes {r : Response} (hcode : 10000 ≤ r.header.statusCode.toNat) :
    r.bytes.length = r.size := by
  rw [bytes, List.length_append, Body.length_bytes, size, HeaderResponse.size_eq hcode]

/-- With a five-digit code, `data` is one contiguous write of the encoding. -/
theorem data_eq {r : Response} (hcode : 10000 ≤ r.header.statusCode.toNat) :
    r.data = copy 0 r.bytes := by
  rw [data, HeaderResponse.data, Header.data_eq, Body.data_eq, offset_copy, bytes, copy_append,
    HeaderResponse.size_eq hcode, Nat.zero_add, Nat.add_zero]

/-- The response has the status. -/
def Answers (r : Response) (s : StatusCode) : Prop :=
  r.header.statusCode = s.code

instance (r : Response) (s : StatusCode) : Decidable (r.Answers s) :=
  inferInstanceAs (Decidable (_ = _))

end Response

/-- `make_response`. -/
def makeResponse (code : StatusCode) (body : List Str) : Response :=
  let b := Body.ofList body
  ⟨⟨defaultMagic, defaultRev, code.code, UInt32.ofNat b.size⟩, b⟩

@[simp] theorem answers_makeResponse {code s : StatusCode} {body : List Str} :
    (makeResponse code body).Answers s ↔ code = s :=
  StatusCode.code_inj

@[simp] theorem content_makeResponse (code : StatusCode) (body : List Str) :
    (makeResponse code body).body.content = body :=
  Body.content_ofList body

theorem code_makeResponse (code : StatusCode) (body : List Str) :
    10000 ≤ (makeResponse code body).header.statusCode.toNat :=
  code.code_bounds.1

theorem plain_makeResponse (code : StatusCode) {body : List Str}
    (h : (Body.ofList body).size < 2 ^ 31) :
    (makeResponse code body).header.toHeader.Plain where
  revision := show 0 ≤ defaultRev.toInt by decide
  code := code.code_bounds.1
  bufferSize := by
    simp only [makeResponse, HeaderResponse.toHeader, UInt32.toNat_ofNat']
    omega

/-- The header says how long the encoded body is. -/
theorem bufferSize_makeResponse (code : StatusCode) {body : List Str}
    (h : (Body.ofList body).size < 2 ^ 31) :
    (makeResponse code body).header.bufferSize.toNat = (makeResponse code body).body.size := by
  simp only [makeResponse, UInt32.toNat_ofNat']
  omega

end SpaceBattle
