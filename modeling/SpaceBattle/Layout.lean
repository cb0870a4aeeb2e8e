import SpaceBattle.Message

/-!
# Sizes and layouts

`size` and `data` compute the length of a message separately, and the header's part of
each has a copy for requests and one for responses. In three of the four the code counts
with the digits it has; `HeaderResponse::size` pads it to five, so a shorter code leaves
a gap between the header and the body, whose bytes nothing writes
(`request_laidOut_and_response_laidOut_iff`).
-/

namespace SpaceBattle

open Cpp Buffer HeaderUtility

/-- The message's assignments are the header's and, from behind its last NUL on, the
body's. Together they fill the `size` bytes that are allocated. -/
structure LaidOut (size : ℕ) (header body data : List (ℕ × UInt8)) : Prop where
  fills : Fills size data
  placed : ∃ k, header.getLast? = some (k, 0) ∧ data = header ++ offset (k + 1) body

namespace Header

/-- The header's last assignment is the NUL behind its last text. -/
theorem getLast?_data (h : Header) : h.data.getLast? = some (h.bytes.length - 1, 0) := by
  have hend : h.bytes.length - 1 = 2 + (convert shortMax h.revision.toInt).length + 1 +
      (digits h.code.toNat).length + 1 + (convert uintMax h.bufferSize.toNat).length := by
    simp only [bytes, List.length_cons, List.length_append, List.length_nil]
    omega
  rw [hend, data, ← List.append_assoc, List.getLast?_concat]

theorem length_bytes_pos (h : Header) : 0 < h.bytes.length :=
  Nat.succ_pos _

/-- A message whose header counts the bytes it writes is laid out. -/
theorem laidOut {h : Header} {size : ℕ} (hsize : size = h.bytes.length) (b : Body) :
    LaidOut (size + b.size) h.data b.data (h.data ++ offset size b.data) where
  fills := by
    rw [hsize, data_eq, Body.data_eq, offset_copy, ← b.length_bytes, Nat.add_zero,
      ← Nat.zero_add h.bytes.length, ← copy_append, Nat.zero_add, ← List.length_append]
    exact fills_copy _
  placed := ⟨h.bytes.length - 1, h.getLast?_data, by
    rw [hsize, Nat.sub_add_cancel h.length_bytes_pos]⟩

/-- A message that is laid out has a header that counts the bytes it writes. -/
theorem eq_of_laidOut {h : Header} {size : ℕ} {b : Body}
    (hlaid : LaidOut (size + b.size) h.data b.data (h.data ++ offset size b.data)) :
    size = h.bytes.length := by
  have hlength := hlaid.fills.length_eq
  rw [List.length_append, length_offset, data_eq, Body.data_eq, length_copy, length_copy,
    b.length_bytes] at hlength
  omega

end Header

/-- A response header counts the bytes it writes exactly if its code has five digits. -/
theorem HeaderResponse.size_eq_iff (h : HeaderResponse) :
    h.size = h.toHeader.bytes.length ↔ 10000 ≤ h.statusCode.toNat := by
  refine ⟨?_, HeaderResponse.size_eq⟩
  intro hsize
  have hfour := length_digits_le_iff (n := h.statusCode.toNat) (k := 4) (by decide)
  simp only [size, Header.bytes, toHeader, List.length_cons, List.length_append, List.length_nil,
    length_convert_code] at hsize
  omega

/-- Every request is laid out in its `size` bytes, and a response is if and only if its
code has five digits. -/
theorem request_laidOut_and_response_laidOut_iff (request : Request) (response : Response) :
    LaidOut request.size request.header.data request.body.data request.data ∧
    (LaidOut response.size response.header.data response.body.data response.data ↔
      10000 ≤ response.header.statusCode.toNat) := by
  constructor
  · exact Header.laidOut request.header.size_eq request.body
  · rw [← HeaderResponse.size_eq_iff]
    exact ⟨fun hlaid => Header.eq_of_laidOut hlaid, fun hsize => Header.laidOut hsize response.body⟩

/-- A response whose code is `42` : its header writes 22 of the 25 bytes it counts. -/
theorem response_not_laidOut : ∃ r : Response, r.header.statusCode = 42 ∧
    r.body.content = [lit "hi"] ∧ ¬LaidOut r.size r.header.data r.body.data r.data := by
  refine ⟨⟨⟨0x2A, 1, 42, 3⟩, Body.ofList [lit "hi"]⟩, rfl, rfl, ?_⟩
  intro hlaid
  exact absurd hlaid.fills.length_eq (by decide +kernel)

end SpaceBattle
