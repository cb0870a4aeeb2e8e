import SpaceBattle.Canonical
import SpaceBattle.Lib.Channel

/-!
# Clients

The client's end of a connection as it runs. `OutputConnection` reads one response each time
its `read` is called : 25 bytes of a header, then as many of a body as the header says, and
then it waits for nothing until the next `read`. The clients of the repository call `write`
and `read` when they are connected and again in the callback of each response, so a `Peer`
asks when no read is outstanding, and asks one request at a time.

What a header throws leaves the client's `io_service::run`, and nothing runs after it
(`Peer.fault`).
-/

namespace SpaceBattle

open Cpp AsyncWrite

/-! ## What is asked and answered -/

/-- The strings of a body whose header says how long it is : an `int` holds the length of
their encoding. -/
structure Payload extends Body.Content where
  short : (Body.ofList strings).size < 2 ^ 31

/-- What a client hands to `make_request`. -/
structure Question where
  opCode : OpCode
  payload : Payload

def Question.request (q : Question) : Request :=
  makeRequest q.opCode q.payload.strings

/-- What the server hands to `make_response`. -/
structure Reply where
  code : StatusCode
  payload : Payload

def Reply.response (a : Reply) : Response :=
  makeResponse a.code a.payload.strings

namespace Question

variable (q : Question)

theorem plain : q.request.header.toHeader.Plain :=
  plain_makeRequest q.opCode q.payload.short

theorem bufferSize_eq : q.request.header.bufferSize.toNat = q.request.body.bytes.length := by
  rw [Body.length_bytes]
  exact bufferSize_makeRequest q.opCode q.payload.short

theorem zero_notMem : ∀ s ∈ q.request.body.content, 0 ∉ s := by
  simpa [request, makeRequest] using q.payload.nulFree

end Question

namespace Reply

variable (a : Reply)

theorem plain : a.response.header.toHeader.Plain :=
  plain_makeResponse a.code a.payload.short

theorem bufferSize_eq : a.response.header.bufferSize.toNat = a.response.body.bytes.length := by
  rw [Body.length_bytes]
  exact bufferSize_makeResponse a.code a.payload.short

theorem zero_notMem : ∀ s ∈ a.response.body.content, 0 ∉ s := by
  simpa [response] using a.payload.nulFree

end Reply

/-! ## The connection -/

/-- `OutputConnection` : the read that is outstanding, if any, and the header of the current
response. -/
structure OutputConnection where
  reading : Option Reading
  currentHeaderResponse : HeaderResponse
  deriving DecidableEq

namespace OutputConnection

def new : OutputConnection :=
  ⟨none, HeaderResponse.default⟩

/-- `OutputConnection::read` : 25 bytes into `m_data_header`. -/
def read (c : OutputConnection) : OutputConnection :=
  { c with reading := some .header }

/-- `OutputConnection::read_body` : as many bytes as the header says into a new
`m_data_body`. -/
def readBody (c : OutputConnection) (header : HeaderResponse) : OutputConnection :=
  { c with reading := some .body, currentHeaderResponse := header }

/-- The number of bytes the outstanding read waits for. -/
def wanted (c : OutputConnection) : ℕ :=
  match c.reading with
  | none => 0
  | some .header => 25
  | some .body => c.currentHeaderResponse.bufferSize.toNat

/-- The completion of the header's read, `mem` the memory from `m_data_header` on. -/
def onHeader (c : OutputConnection) (mem : List UInt8) : Except Exn OutputConnection := do
  let h ← HeaderResponse.ofBuffer mem 25
  .ok (c.readBody h)

/-- The response the completion of the body's read hands to `m_on_read_success`, `mem` the
memory from `m_data_body` on. -/
def response (c : OutputConnection) (mem : List UInt8) : Response :=
  ⟨c.currentHeaderResponse, Body.ofBuffer mem c.currentHeaderResponse.bufferSize.toNat⟩

/-- The body's read has completed, and no other is outstanding. -/
def finish (c : OutputConnection) : OutputConnection :=
  { c with reading := none }

end OutputConnection

/-! ## The process at the other end -/

/-- A client : its connection, what it writes, the number of bytes of the server's wire it
has read, and what ended its `io_service::run`. -/
structure Peer where
  output : OutputConnection
  /-- The client's socket, and what the server has read of it. -/
  requests : Channel UInt8
  taken : ℕ
  fault : Option Exn

namespace Peer

/-- A client that is connected. -/
def new : Peer :=
  ⟨OutputConnection.new, Channel.new, 0, none⟩

/-- `write` and `read`, from a callback that finds no read outstanding. -/
def ask (p : Peer) (q : Question) (heap : ℕ → UInt8) : Option Peer :=
  if p.fault.isSome || p.output.reading.isSome then none
  else
    some { p with
      requests := p.requests.write (OutputConnection.write heap q.request)
      output := p.output.read }

/-- A partial write of the client. -/
def send (p : Peer) (k n : ℕ) : Option Peer :=
  if p.fault.isSome then none
  else (p.requests.progress k n).map fun requests => { p with requests := requests }

/-- The outstanding read completes, with bytes off the server's socket : the response its
callback is given, if it is the body's. -/
def receive (p : Peer) (socket : Socket UInt8) (beyond : List UInt8) :
    Option (Peer × Option Response) :=
  if p.fault.isSome then none
  else
    match p.output.reading, Channel.read ⟨socket, p.taken⟩ p.output.wanted with
    | some .header, some (data, answers) =>
      match p.output.onHeader (data ++ beyond) with
      | .error e => some ({ p with taken := answers.taken, fault := some e }, none)
      | .ok output => some ({ p with taken := answers.taken, output := output }, none)
    | some .body, some (data, answers) =>
      some ({ p with taken := answers.taken, output := p.output.finish },
        some (p.output.response (data ++ beyond)))
    | _, _ => none

/-! ## Steps -/

theorem ask_eq_some_iff {p p' : Peer} {q : Question} {heap : ℕ → UInt8} :
    p.ask q heap = some p' ↔ p.fault = none ∧ p.output.reading = none ∧
      { p with requests := p.requests.write q.request.bytes, output := p.output.read } = p' := by
  simp [ask, OutputConnection.write_eq, and_assoc]

theorem send_eq_some_iff {p p' : Peer} {k n : ℕ} : p.send k n = some p' ↔ p.fault = none ∧
    ∃ requests, p.requests.progress k n = some requests ∧ { p with requests := requests } = p' := by
  simp [send]

/-- What the completion of a client's read does. -/
theorem receive_cases {p p' : Peer} {socket : Socket UInt8} {beyond : List UInt8}
    {o : Option Response} (h : p.receive socket beyond = some (p', o)) : p.fault = none ∧
      ∃ data answers, Channel.read ⟨socket, p.taken⟩ p.output.wanted = some (data, answers) ∧
        ((p.output.reading = some .header ∧ o = none ∧
          ((∃ e, p.output.onHeader (data ++ beyond) = .error e ∧
            p' = { p with taken := answers.taken, fault := some e }) ∨
          ∃ output, p.output.onHeader (data ++ beyond) = .ok output ∧
            p' = { p with taken := answers.taken, output := output })) ∨
        (p.output.reading = some .body ∧ o = some (p.output.response (data ++ beyond)) ∧
          p' = { p with taken := answers.taken, output := p.output.finish })) := by
  have hfault : p.fault = none := by
    by_contra hne
    simp [receive, Option.isSome_iff_ne_none.2 hne] at h
  refine ⟨hfault, ?_⟩
  cases hread : Channel.read ⟨socket, p.taken⟩ p.output.wanted with
  | none => simp [receive, hfault, hread] at h
  | some r =>
    obtain ⟨data, answers⟩ := r
    refine ⟨data, answers, rfl, ?_⟩
    rcases hreading : p.output.reading with _ | _ | _
    · simp [receive, hfault, hreading] at h
    · cases hheader : p.output.onHeader (data ++ beyond) with
      | error e =>
        obtain ⟨rfl, rfl⟩ : { p with taken := answers.taken, fault := some e } = p' ∧ none = o := by
          simpa [receive, hfault, hread, hreading, hheader] using h
        exact Or.inl ⟨rfl, rfl, Or.inl ⟨e, rfl, rfl⟩⟩
      | ok output =>
        obtain ⟨rfl, rfl⟩ :
            { p with taken := answers.taken, output := output } = p' ∧ none = o := by
          simpa [receive, hfault, hread, hreading, hheader] using h
        exact Or.inl ⟨rfl, rfl, Or.inr ⟨output, rfl, rfl⟩⟩
    · obtain ⟨rfl, rfl⟩ : { p with taken := answers.taken, output := p.output.finish } = p' ∧
          some (p.output.response (data ++ beyond)) = o := by
        simpa [receive, hfault, hread, hreading] using h
      exact Or.inr ⟨rfl, rfl, rfl⟩

end Peer

end SpaceBattle
