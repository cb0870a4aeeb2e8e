import SpaceBattle.Message

/-!
# Connections

The two ends of a connection. The server's `InputConnection` waits for 25 bytes, decodes
a header from them, waits for as many bytes as the header says, decodes the body, hands
the request over and waits for the next header. `serve` is that loop on a byte stream :
the completions of the reads in order, with whatever the memory holds after the buffer at
each (`beyond`). The client's `OutputConnection` reads one response the same way.

Both ends write a message into a fresh buffer of `size` bytes. `write_eq` : the buffer
then holds the encoding, whatever the heap held. `serve_requests` : the server's loop,
on the bytes of any list of requests with NUL-free strings, delivers that list and
leaves nothing. `receive_write` is the counterpart for one response.
-/

namespace SpaceBattle

open Cpp Buffer

/-! ## The server's end -/

/-- The read that is outstanding. -/
inductive Reading
  | header
  | body
  deriving DecidableEq, Repr

/-- A body's read may wait for nothing, a header's never does. -/
def Reading.phase : Reading → ℕ
  | header => 0
  | body => 1

theorem Reading.phase_le (r : Reading) : r.phase ≤ 1 := by
  cases r <;> simp [phase]

/-- `InputConnection` : the outstanding read and the header of the current request. -/
structure InputConnection where
  reading : Reading
  currentHeaderRequest : HeaderRequest
  deriving DecidableEq

namespace InputConnection

/-- A connection after its first `read`. -/
def new : InputConnection :=
  ⟨.header, HeaderRequest.default⟩

/-- `InputConnection::read` : 25 bytes into `m_data`. -/
def read (c : InputConnection) : InputConnection :=
  { c with reading := .header }

/-- `InputConnection::read_body` : as many bytes as the header says into a new `m_body`. -/
def readBody (c : InputConnection) (requestHeader : HeaderRequest) : InputConnection :=
  { c with reading := .body, currentHeaderRequest := requestHeader }

/-- The number of bytes the outstanding read waits for. -/
def wanted (c : InputConnection) : ℕ :=
  match c.reading with
  | .header => 25
  | .body => c.currentHeaderRequest.bufferSize.toNat

/-- The completion of the header's read, `mem` the memory from `m_data` on. -/
def onHeader (c : InputConnection) (mem : List UInt8) : Except Exn InputConnection := do
  let requestHeader ← HeaderRequest.ofBuffer mem 25
  .ok (c.readBody requestHeader)

/-- The completion of the header's read throws unless the fields are numbers within their
bounds. -/
theorem exists_onHeader_iff (c : InputConnection) (mem : List UInt8) :
    (∃ c', c.onHeader mem = .ok c') ↔
      Header.Numerals mem 25 2 [shortMax, ushortMax, 2 ^ 31 - 1] := by
  rw [← HeaderRequest.exists_ofBuffer_iff mem (by omega), onHeader]
  cases HeaderRequest.ofBuffer mem 25 <;> simp

/-- The request the completion of the body's read hands to `m_on_read`, `mem` the memory
from `m_body` on. -/
def request (c : InputConnection) (mem : List UInt8) : Request :=
  ⟨c.currentHeaderRequest, Body.ofBuffer mem c.currentHeaderRequest.bufferSize.toNat⟩

/-- The bytes `InputConnection::write` sends, `heap` what `new char[]` finds. -/
def write (heap : ℕ → UInt8) (response : Response) : List UInt8 :=
  store (newChars heap response.size) response.data

/-- The read loop on a stream, from its `n`-th read : the requests handed over, the
connection and the bytes left when too few remain. -/
def serve (beyond : ℕ → List UInt8) (n : ℕ) (c : InputConnection) (stream : List UInt8) :
    Except Exn (List Request × InputConnection × List UInt8) :=
  match hr : c.reading with
  | .header =>
    if stream.length < 25 then .ok ([], c, stream)
    else do
      let c' ← c.onHeader (stream.take 25 ++ beyond n)
      serve beyond (n + 1) c' (stream.drop 25)
  | .body =>
    let size := c.currentHeaderRequest.bufferSize.toNat
    if stream.length < size then .ok ([], c, stream)
    else
      let request := c.request (stream.take size ++ beyond n)
      (serve beyond (n + 1) c.read (stream.drop size)).map fun r => (request :: r.1, r.2)
termination_by 2 * stream.length + c.reading.phase
decreasing_by
  · have hphase := c'.reading.phase_le
    rw [List.length_drop]
    omega
  · simp only [hr, Reading.phase, read, List.length_drop]
    omega

theorem serve_header {beyond : ℕ → List UInt8} {n : ℕ} {c c' : InputConnection}
    {stream : List UInt8} (hr : c.reading = .header) (hlen : 25 ≤ stream.length)
    (hc' : c.onHeader (stream.take 25 ++ beyond n) = .ok c') :
    serve beyond n c stream = serve beyond (n + 1) c' (stream.drop 25) := by
  rw [serve]
  split
  · rw [if_neg (by omega), hc']
    rfl
  · simp_all

/-- A header that throws leaves the loop. -/
theorem serve_error {beyond : ℕ → List UInt8} {n : ℕ} {c : InputConnection}
    {stream : List UInt8} {e : Exn} (hr : c.reading = .header) (hlen : 25 ≤ stream.length)
    (he : c.onHeader (stream.take 25 ++ beyond n) = .error e) :
    serve beyond n c stream = .error e := by
  rw [serve]
  split
  · rw [if_neg (by omega), he]
    rfl
  · simp_all

theorem serve_body {beyond : ℕ → List UInt8} {n size : ℕ} {c : InputConnection}
    {stream : List UInt8} (hr : c.reading = .body)
    (hsize : c.currentHeaderRequest.bufferSize.toNat = size) (hlen : size ≤ stream.length) :
    serve beyond n c stream = (serve beyond (n + 1) c.read (stream.drop size)).map fun r =>
      (c.request (stream.take size ++ beyond n) :: r.1, r.2) := by
  subst hsize
  rw [serve]
  split
  · simp_all
  · rw [if_neg (by omega)]

/-- The loop stops where its read waits for more than is left. -/
theorem serve_short {beyond : ℕ → List UInt8} {n : ℕ} {c : InputConnection}
    {stream : List UInt8} (hlen : stream.length < c.wanted) :
    serve beyond n c stream = .ok ([], c, stream) := by
  rw [wanted] at hlen
  rw [serve]
  split
  · rename_i hr
    rw [hr] at hlen
    rw [if_pos hlen]
  · rename_i hr
    rw [hr] at hlen
    rw [if_pos hlen]

/-- The loop stops at the end of the stream, waiting for a header. -/
theorem serve_nil {beyond : ℕ → List UInt8} {n : ℕ} {c : InputConnection}
    (hr : c.reading = .header) : serve beyond n c [] = .ok ([], c, []) :=
  serve_short (by simp [wanted, hr])

/-- The completion of the outstanding read, `mem` the memory from its buffer on : the
connection, with its next read outstanding, and the request that is handed over. -/
def turn (c : InputConnection) (mem : List UInt8) :
    Except Exn (InputConnection × Option Request) :=
  match c.reading with
  | .header => do
    let c' ← c.onHeader mem
    .ok (c', none)
  | .body => .ok (c.read, some (c.request mem))

theorem turn_header {c c' : InputConnection} {mem : List UInt8} (hr : c.reading = .header)
    (hc' : c.onHeader mem = .ok c') : c.turn mem = .ok (c', none) := by
  rw [turn, hr]
  exact congrArg (· >>= fun c' => .ok (c', none)) hc'

theorem turn_error {c : InputConnection} {mem : List UInt8} {e : Exn} (hr : c.reading = .header)
    (he : c.onHeader mem = .error e) : c.turn mem = .error e := by
  rw [turn, hr]
  exact congrArg (· >>= fun c' => .ok (c', none)) he

theorem turn_body {c : InputConnection} (mem : List UInt8) (hr : c.reading = .body) :
    c.turn mem = .ok (c.read, some (c.request mem)) := by
  rw [turn, hr]

/-- The loop takes a turn when the outstanding read has what it waits for. -/
theorem serve_turn {beyond : ℕ → List UInt8} {n : ℕ} {c : InputConnection} {data : List UInt8}
    (hlen : data.length = c.wanted) (rest : List UInt8) :
    serve beyond n c (data ++ rest) = (c.turn (data ++ beyond n)).bind fun t =>
      (serve beyond (n + 1) t.1 rest).map fun r => (t.2.toList ++ r.1, r.2) := by
  have htake : (data ++ rest).take c.wanted = data := by rw [← hlen, List.take_left]
  have hdrop : (data ++ rest).drop c.wanted = rest := by rw [← hlen, List.drop_left]
  have hle : c.wanted ≤ (data ++ rest).length := by
    rw [List.length_append, hlen]
    exact Nat.le_add_right _ _
  unfold turn
  cases hr : c.reading with
  | header =>
    rw [wanted, hr] at htake hdrop hle
    cases hheader : c.onHeader (data ++ beyond n) with
    | error e => exact serve_error hr hle (by rw [htake, hheader])
    | ok c' =>
      rw [serve_header hr hle (by rw [htake, hheader]), hdrop]
      change _ = (serve beyond (n + 1) c' rest).map fun r => ([] ++ r.1, r.2)
      cases serve beyond (n + 1) c' rest <;> rfl
  | body =>
    have hwanted : c.wanted = c.currentHeaderRequest.bufferSize.toNat := by rw [wanted, hr]
    rw [hwanted] at htake hdrop hle
    rw [serve_body hr rfl hle, htake, hdrop]
    rfl

end InputConnection

/-! ## The client's end -/

namespace OutputConnection

/-- The bytes `OutputConnection::write` sends. -/
def write (heap : ℕ → UInt8) (request : Request) : List UInt8 :=
  store (newChars heap request.size) request.data

/-- `OutputConnection::read` and `read_body` on a stream : the response and the bytes left,
or `none` while too few bytes have come. `beyondHeader` and `beyondBody` are the memory
after the two buffers. -/
def receive (beyondHeader beyondBody stream : List UInt8) :
    Except Exn (Option (Response × List UInt8)) :=
  if stream.length < 25 then .ok none
  else do
    let header ← HeaderResponse.ofBuffer (stream.take 25 ++ beyondHeader) 25
    let rest := stream.drop 25
    let size := header.bufferSize.toNat
    if rest.length < size then .ok none
    else
      .ok (some (⟨header, Body.ofBuffer (rest.take size ++ beyondBody) size⟩, rest.drop size))

/-- The client sends the encoding of its request. -/
theorem write_eq (heap : ℕ → UInt8) (request : Request) : write heap request = request.bytes := by
  rw [write, request.data_eq, store_copy (by rw [length_newChars, request.length_bytes])]

end OutputConnection

/-- The server sends the encoding of its response. -/
theorem InputConnection.write_eq (heap : ℕ → UInt8) {response : Response}
    (hcode : 10000 ≤ response.header.statusCode.toNat) :
    InputConnection.write heap response = response.bytes := by
  rw [InputConnection.write, Response.data_eq hcode,
    store_copy (by rw [length_newChars, Response.length_bytes hcode])]

/-! ## Framing -/

namespace InputConnection

/-- The loop reads one encoded request off the stream, and goes on behind it. -/
theorem serve_bytes {beyond : ℕ → List UInt8} {n : ℕ} {c : InputConnection} {r : Request}
    (hr : c.reading = .header) (hplain : r.header.toHeader.Plain)
    (hsize : r.header.bufferSize.toNat = r.body.size) (hnul : ∀ s ∈ r.body.content, 0 ∉ s)
    (rest : List UInt8) : serve beyond n c (r.bytes ++ rest) =
      (serve beyond (n + 2) ⟨.header, r.header⟩ rest).map fun served =>
        (r :: served.1, served.2) := by
  have h25 : r.header.toHeader.bytes.length = 25 := hplain.length_bytes
  have hlen : r.body.bytes.length = r.body.size := r.body.length_bytes
  have hheader : c.onHeader ((r.header.toHeader.bytes ++ (r.body.bytes ++ rest)).take 25 ++
      beyond n) = .ok (c.readBody r.header) := by
    rw [hplain.take_bytes, onHeader, HeaderRequest.ofBuffer_bytes hplain, ok_bind]
  have hbody : (c.readBody r.header).request (r.body.bytes ++ beyond (n + 1)) = r := by
    simp only [request, readBody, hsize, Body.ofBuffer_bytes r.body hnul]
  rw [Request.bytes, List.append_assoc,
    serve_header hr (by rw [List.length_append]; omega) hheader, hplain.drop_bytes,
    serve_body rfl hsize (by rw [List.length_append]; omega)]
  rw [← hlen, List.take_left, List.drop_left, hbody]
  rfl

end InputConnection

open InputConnection

/-- The loop reads the encodings of any list of requests, from any read on. -/
theorem serve_encodings (beyond : ℕ → List UInt8) : ∀ (requests : List (OpCode × List Str)) (n : ℕ)
    {c : InputConnection}, c.reading = .header →
      (∀ x ∈ requests, (∀ s ∈ x.2, 0 ∉ s) ∧ (Body.ofList x.2).size < 2 ^ 31) →
        ∃ c', c'.reading = .header ∧
          serve beyond n c (requests.flatMap fun x => (makeRequest x.1 x.2).bytes) =
            .ok (requests.map fun x => makeRequest x.1 x.2, c', [])
  | [], n, c, hr, _ => ⟨c, hr, serve_nil hr⟩
  | (op, body) :: requests, n, c, hr, h => by
    obtain ⟨hnul, hsize⟩ := h (op, body) (by simp)
    obtain ⟨c', hc', hrest⟩ := serve_encodings beyond requests (n + 2)
      (c := ⟨.header, (makeRequest op body).header⟩) rfl fun x hx => h x (by simp [hx])
    refine ⟨c', hc', ?_⟩
    rw [List.flatMap_cons, serve_bytes hr (plain_makeRequest op hsize)
      (bufferSize_makeRequest op hsize) (by simpa [makeRequest] using hnul), hrest]
    rfl

/-- The server's loop, on what the client writes for a list of requests, delivers exactly
these requests in order, each with the op code and the strings it was made of, throws
nowhere and leaves no byte. `sent` is the requests, each with what the client's heap held
when it was written. -/
theorem serve_requests (beyond : ℕ → List UInt8)
    (sent : List ((OpCode × List Str) × (ℕ → UInt8)))
    (hnul : ∀ x ∈ sent, ∀ s ∈ x.1.2, 0 ∉ s)
    (hsize : ∀ x ∈ sent, (Body.ofList x.1.2).size < 2 ^ 31) :
    ∃ c delivered, c.reading = .header ∧
      serve beyond 0 InputConnection.new
        (sent.flatMap fun x => OutputConnection.write x.2 (makeRequest x.1.1 x.1.2)) =
          .ok (delivered, c, []) ∧
      delivered = sent.map (fun x => makeRequest x.1.1 x.1.2) ∧
      delivered.map (fun r => r.header.opCode) = sent.map (fun x => x.1.1.code) ∧
      delivered.map (fun r => r.body.content) = sent.map (fun x => x.1.2) := by
  obtain ⟨c, hc, hserve⟩ := serve_encodings beyond (sent.map Prod.fst) 0 (c := InputConnection.new)
    rfl fun x hx => by
      obtain ⟨y, hy, rfl⟩ := List.mem_map.1 hx
      exact ⟨hnul y hy, hsize y hy⟩
  refine ⟨c, _, hc, ?_, rfl, ?_, ?_⟩
  · simpa only [List.flatMap_map, List.map_map, Function.comp_def, OutputConnection.write_eq]
      using hserve
  · rw [List.map_map]
    rfl
  · rw [List.map_map]
    exact List.map_congr_left fun x _ => Body.content_ofList x.1.2

/-- Three pipelined requests, one with no string and one with empty strings. -/
theorem serve_requests_three : ∃ c delivered, c.reading = .header ∧
    serve (fun _ => []) 0 InputConnection.new
      ([((.leave, []), fun _ => 0), ((.createGame, [[], lit "1", []]), fun _ => 7),
        ((.clientConnect, [lit "ada"]), fun _ => 1)].flatMap fun x =>
          OutputConnection.write x.2 (makeRequest x.1.1 x.1.2)) = .ok (delivered, c, []) ∧
    delivered = [makeRequest .leave [], makeRequest .createGame [[], lit "1", []],
      makeRequest .clientConnect [lit "ada"]] ∧
    delivered.map (fun r => r.header.opCode) =
      [OpCode.leave.code, OpCode.createGame.code, OpCode.clientConnect.code] ∧
    delivered.map (fun r => r.body.content) = [[], [[], lit "1", []], [lit "ada"]] :=
  serve_requests _ _ (by decide +kernel) (by decide +kernel)

/-- The client reads back exactly the response the server writes, and leaves the bytes
behind it. -/
theorem receive_write (heap : ℕ → UInt8) (beyondHeader beyondBody rest : List UInt8)
    (code : StatusCode) {body : List Str} (hnul : ∀ s ∈ body, 0 ∉ s)
    (hsize : (makeResponse code body).body.size < 2 ^ 31) :
    OutputConnection.receive beyondHeader beyondBody
      (InputConnection.write heap (makeResponse code body) ++ rest) =
        .ok (some (makeResponse code body, rest)) := by
  have hsize : (Body.ofList body).size < 2 ^ 31 := hsize
  have hplain := plain_makeResponse code hsize
  have hlength := bufferSize_makeResponse code hsize
  have hcontent : ∀ s ∈ (makeResponse code body).body.content, 0 ∉ s := by simpa using hnul
  rw [InputConnection.write_eq heap (code_makeResponse code body)]
  generalize makeResponse code body = r at *
  have h25 : r.header.toHeader.bytes.length = 25 := hplain.length_bytes
  have hlen : r.body.bytes.length = r.body.size := r.body.length_bytes
  rw [Response.bytes, List.append_assoc, OutputConnection.receive,
    if_neg (by rw [List.length_append]; omega), hplain.take_bytes,
    HeaderResponse.ofBuffer_bytes hplain, ok_bind]
  simp only [hplain.drop_bytes, hlength]
  rw [if_neg (by rw [List.length_append]; omega), ← hlen, List.take_left, List.drop_left, hlen,
    Body.ofBuffer_bytes r.body hcontent]

end SpaceBattle
