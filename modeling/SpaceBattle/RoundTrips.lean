import SpaceBattle.OneShot

/-!
# Whole messages in one buffer

A message is written into a buffer of `size` bytes, and `Request(const char *, std::size_t)`
and `Response(const char *, std::size_t)` decode one from such a buffer. The header's texts
end with a NUL each, so they are read wherever they end; the body is looked for behind as
many bytes as the decoded header counts, which is where `data` has put it, also when the
count of a response runs past the header's last byte and leaves a gap there.

`oneShot_roundTrips_iff` : what is written decodes to the same message exactly if no zeros
stand before a minus, the body size is an `int`, and no string holds a NUL.
-/

namespace SpaceBattle

open Cpp Buffer HeaderUtility

/-- `Response(const char *buffer, std::size_t buffer_length)`, `mem` the memory from
`buffer` on. -/
def Response.ofBuffer (mem : List UInt8) (bufferLength : ℕ) : Except Exn Response := do
  let header ← HeaderResponse.ofBuffer mem bufferLength
  .ok ⟨header,
    Body.ofBuffer (mem.drop header.size) (toSize ((bufferLength : ℤ) - header.size))⟩

theorem Response.ofBuffer_eq_ok_iff {mem : List UInt8} {bufferLength : ℕ} {r : Response} :
    ofBuffer mem bufferLength = .ok r ↔ HeaderResponse.ofBuffer mem bufferLength = .ok r.header ∧
      r.body = Body.ofBuffer (mem.drop r.header.size)
        (toSize ((bufferLength : ℤ) - r.header.size)) := by
  rw [ofBuffer, bind_eq_ok]
  constructor
  · rintro ⟨header, hheader, heq⟩
    obtain rfl := Except.ok.inj heq
    exact ⟨hheader, rfl⟩
  · rintro ⟨hheader, hbody⟩
    refine ⟨r.header, hheader, ?_⟩
    rw [← hbody]

/-! ## The header -/

namespace Header

/-- The numbers of the header are written in texts that read back : zeros never stand before
a minus, and the body size is an `int`. -/
def Readable (h : Header) : Prop :=
  (0 ≤ h.revision.toInt ∨ h.revision.toInt ≤ -1000) ∧ h.bufferSize.toNat < 2 ^ 31

instance (h : Header) : Decidable h.Readable :=
  inferInstanceAs (Decidable (_ ∧ _))

/-- A header is decoded from its bytes in any buffer that holds them, whatever follows. -/
theorem ofBuffer_bytes_of_le_iff {default h : Header} {bufferLength : ℕ}
    (hle : h.bytes.length ≤ bufferLength) (after : List UInt8) :
    ofBuffer default (h.bytes ++ after) bufferLength = .ok h ↔ h.Readable := by
  have hlength : h.bytes.length = 2 + ((convert shortMax h.revision.toInt).length + 1) +
      ((digits h.code.toNat).length + 1) + ((convert uintMax h.bufferSize.toNat).length + 1) := by
    simp only [bytes, List.length_cons, List.length_append, List.length_nil]
    omega
  have htexts := ofBuffer_texts_eq_ok_iff default h h.magic (zero_notMem_convert_int16 h.revision)
    (zero_notMem_digits h.code.toNat) (zero_notMem_convert uintMax h.bufferSize.toNat) after
    bufferLength (by omega)
  rw [Readable, ← readRevision_convert_iff, ← readBufferSize_convert_iff]
  simpa [bytes, readCode_digits] using htexts

end Header

/-! ## The body -/

/-- What a body writes decodes to it unless a string holds a NUL, where it is cut. -/
theorem Body.ofBuffer_bytes_iff (b : Body) (after : List UInt8) :
    ofBuffer (b.bytes ++ after) b.size = b ↔ ∀ s ∈ b.content, 0 ∉ s := by
  refine ⟨fun h s hs => ?_, fun h => ofBuffer_bytes b h after⟩
  rw [← h] at hs
  exact zero_notMem_ofBuffer hs

/-- A header and a body are decoded from a buffer with both, the body behind as many bytes as
the header counts. -/
theorem decodes_iff {default h : Header} {b : Body} {gap : List UInt8} {size : ℕ}
    (hsize : (h.bytes ++ gap).length = size) (hlt : size + b.size < 2 ^ 64) (after : List UInt8) :
    (Header.ofBuffer default (h.bytes ++ gap ++ b.bytes ++ after) (size + b.size) = .ok h ∧
      b = Body.ofBuffer ((h.bytes ++ gap ++ b.bytes ++ after).drop size)
        (toSize (((size + b.size : ℕ) : ℤ) - size))) ↔
      h.Readable ∧ ∀ s ∈ b.content, 0 ∉ s := by
  have hrest : toSize (((size + b.size : ℕ) : ℤ) - size) = b.size := by
    unfold toSize
    omega
  have hdrop : (h.bytes ++ gap ++ b.bytes ++ after).drop size = b.bytes ++ after := by
    rw [List.append_assoc, ← hsize, List.drop_left]
  have hle : h.bytes.length ≤ size + b.size := by
    rw [List.length_append] at hsize
    omega
  refine and_congr ?_ ?_
  · rw [List.append_assoc, List.append_assoc]
    exact Header.ofBuffer_bytes_of_le_iff hle _
  · rw [hdrop, hrest, eq_comm, Body.ofBuffer_bytes_iff]

/-! ## Messages -/

/-- A response header counts the bytes it writes, or more. -/
theorem HeaderResponse.length_bytes_le_size (h : HeaderResponse) :
    h.toHeader.bytes.length ≤ h.size := by
  have hcode := h.statusCode.toNat_lt
  have hfive := length_digits_le_iff (n := h.statusCode.toNat) (k := 5) (by decide)
  simp only [Header.bytes, size, toHeader, List.length_cons, List.length_append, List.length_nil,
    length_convert_code]
  omega

/-- A response is two contiguous writes. -/
theorem Response.data_eq_copies (r : Response) :
    r.data = copy 0 r.header.toHeader.bytes ++ copy r.header.size r.body.bytes := by
  rw [data, HeaderResponse.data, Header.data_eq, Body.data_eq, offset_copy, Nat.add_zero]

/-- A response is written inside of its `size` bytes. -/
theorem Response.fst_lt_size (r : Response) : ∀ i ∈ r.data.map Prod.fst, i < r.size := by
  have hheader := r.header.length_bytes_le_size
  intro i hi
  rw [data_eq_copies, List.map_append, map_fst_copy, map_fst_copy, List.mem_append,
    List.mem_range'_1, List.mem_range'_1, Body.length_bytes] at hi
  rw [size]
  omega

/-- What the server stores for a response : the header's bytes, what the heap held in the
gap behind them, if there is one, and the body. -/
theorem InputConnection.exists_write_eq (heap : ℕ → UInt8) (response : Response) :
    ∃ gap, (response.header.toHeader.bytes ++ gap).length = response.header.size ∧
      InputConnection.write heap response =
        response.header.toHeader.bytes ++ gap ++ response.body.bytes := by
  rw [InputConnection.write, response.data_eq_copies]
  refine store_copy_gap response.header.length_bytes_le_size ?_
  rw [length_newChars, Response.size, Body.length_bytes]

/-- A request and a response, as they are written, decode in one step to what they were
exactly if their numbers read back and their strings hold no NUL, whatever the heap held and
whatever follows. -/
theorem oneShot_roundTrips_iff (request : Request) (response : Response) (heap : ℕ → UInt8)
    (after : List UInt8) (hrequest : request.size < 2 ^ 64) (hresponse : response.size < 2 ^ 64) :
    (Request.ofBuffer (OutputConnection.write heap request ++ after) request.size =
        .ok request ↔
      request.header.toHeader.Readable ∧ ∀ s ∈ request.body.content, 0 ∉ s) ∧
    (Response.ofBuffer (InputConnection.write heap response ++ after) response.size =
        .ok response ↔
      response.header.toHeader.Readable ∧ ∀ s ∈ response.body.content, 0 ∉ s) := by
  constructor
  · have hbytes : OutputConnection.write heap request =
        request.header.toHeader.bytes ++ [] ++ request.body.bytes := by
      rw [OutputConnection.write_eq, List.append_nil]
      rfl
    rw [Request.ofBuffer_eq_ok_iff, HeaderRequest.ofBuffer_eq_ok_iff, hbytes]
    exact decodes_iff (by rw [List.append_nil, request.header.size_eq]) hrequest after
  · obtain ⟨gap, hsize, hbytes⟩ := InputConnection.exists_write_eq heap response
    rw [Response.ofBuffer_eq_ok_iff, HeaderResponse.ofBuffer_eq_ok_iff, hbytes]
    exact decodes_iff hsize hresponse after

/-- A request with a revision of minus twenty thousand, and a response with a code of two
digits, behind which a gap of three bytes is left. -/
theorem oneShot_roundTrips_iff_gap :
    (Request.ofBuffer (OutputConnection.write (fun _ => 7)
        ⟨⟨0x2A, -20000, OpCode.sendMessage.code, 5⟩, Body.ofList [lit "0", lit "hi"]⟩ ++ [9])
        (HeaderRequest.size ⟨0x2A, -20000, OpCode.sendMessage.code, 5⟩ + 5) =
      .ok ⟨⟨0x2A, -20000, OpCode.sendMessage.code, 5⟩, Body.ofList [lit "0", lit "hi"]⟩) ∧
    Response.ofBuffer (InputConnection.write (fun _ => 7)
        ⟨⟨0x2A, 1, 42, 3⟩, Body.ofList [lit "ok"]⟩ ++ [9]) 28 =
      .ok ⟨⟨0x2A, 1, 42, 3⟩, Body.ofList [lit "ok"]⟩ := by
  have hboth := oneShot_roundTrips_iff
    ⟨⟨0x2A, -20000, OpCode.sendMessage.code, 5⟩, Body.ofList [lit "0", lit "hi"]⟩
    ⟨⟨0x2A, 1, 42, 3⟩, Body.ofList [lit "ok"]⟩ (fun _ => 7) [9] (by decide +kernel)
    (by decide +kernel)
  exact ⟨hboth.1.2 (by decide +kernel), hboth.2.2 (by decide +kernel)⟩

end SpaceBattle
