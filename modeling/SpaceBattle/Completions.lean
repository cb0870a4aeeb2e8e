import SpaceBattle.Connection
import SpaceBattle.Lib.LastWrite

/-!
# What a write completes with

Each end of a connection copies the message it writes into a member, and the handler of the
completion passes that member to the callback. The bytes of a write are its own, in a buffer
allocated for it, but the member is overwritten by the next write, so with several writes
outstanding a callback is given a message that was written later
(`alwaysReportsOwn_iff_sameAgain`). The client's callbacks are given the request on success
and on failure, the server's the response on success only.
-/

namespace SpaceBattle

open Cpp LastWrite

/-! ## The client's end -/

/-- `Request()`. -/
def Request.default : Request :=
  ⟨HeaderRequest.default, Body.empty⟩

namespace OutputConnection

/-- The callbacks of a write, with the value of the error code and the request they are
given. -/
inductive WriteCallback
  | onWriteSuccess (request : Request)
  | onWriteFailure (ec : ℤ) (request : Request)
  deriving DecidableEq

/-- `write_socket` of `OutputConnection::write`, with both callbacks set. -/
def writeSocket (ec : ℤ) (currentRequest : Request) : WriteCallback :=
  if ec = 0 then .onWriteSuccess currentRequest else .onWriteFailure ec currentRequest

def WriteCallback.request : WriteCallback → Request
  | onWriteSuccess request => request
  | onWriteFailure _ request => request

@[simp] theorem request_writeSocket (ec : ℤ) (request : Request) :
    (writeSocket ec request).request = request := by
  unfold writeSocket
  split <;> rfl

/-- The completion of a write is given `m_current_request`. -/
def handler : Handler Request ℤ WriteCallback where
  call := writeSocket
  message callback := some callback.request
  message_call h := by simpa using h
  success := 0
  message_success _ := rfl

/-- The writes of an `OutputConnection`. -/
def writes : Machine (Writer Request) (LastWrite.Event Request ℤ) (Option WriteCallback) :=
  machine handler Request.default

end OutputConnection

/-! ## The server's end -/

/-- `Response()`. -/
def Response.default : Response :=
  ⟨HeaderResponse.default, Body.empty⟩

namespace InputConnection

/-- The callbacks of a write, with the response or the value of the error code they are
given. -/
inductive WriteCallback
  | onWriteSucceed (response : Response)
  | onWriteFailed (ec : ℤ)
  deriving DecidableEq

/-- `write_socket` of `InputConnection::write`, with both callbacks set. -/
def writeSocket (ec : ℤ) (currentResponse : Response) : WriteCallback :=
  if ec = 0 then .onWriteSucceed currentResponse else .onWriteFailed ec

def WriteCallback.response : WriteCallback → Option Response
  | onWriteSucceed response => some response
  | onWriteFailed _ => none

theorem eq_of_response_writeSocket {ec : ℤ} {response response' : Response}
    (h : (writeSocket ec response).response = some response') : response = response' := by
  unfold writeSocket at h
  split at h
  · exact Option.some.inj h
  · cases h

/-- The completion of a write is given `m_current_response` if it succeeds. -/
def handler : Handler Response ℤ WriteCallback where
  call := writeSocket
  message := WriteCallback.response
  message_call h := eq_of_response_writeSocket h
  success := 0
  message_success _ := rfl

/-- The writes of an `InputConnection`. -/
def writes : Machine (Writer Response) (LastWrite.Event Response ℤ) (Option WriteCallback) :=
  machine handler Response.default

end InputConnection

/-- At both ends, the callbacks of a run are given the messages of their own writes, however
the outstanding writes complete, if and only if no write finds another message outstanding. -/
theorem alwaysReportsOwn_iff_sameAgain
    (requests : List (LastWrite.Event Request ℤ × Option OutputConnection.WriteCallback))
    (responses : List (LastWrite.Event Response ℤ × Option InputConnection.WriteCallback)) :
    (AlwaysReportsOwn OutputConnection.handler Request.default requests ↔
      OutputConnection.writes.Along SameAgain requests) ∧
    (AlwaysReportsOwn InputConnection.handler Response.default responses ↔
      InputConnection.writes.Along SameAgain responses) :=
  ⟨alwaysReportsOwn_iff requests, alwaysReportsOwn_iff responses⟩

/-- Two messages are written before the first completes : its callback is given the second. -/
theorem callback_given_second :
    (∃ tr s, tr = [(.write (makeRequest .clientConnect [lit "ada"]), none),
        (.write (makeRequest .leave []), none),
        (.complete 0, some (.onWriteSuccess (makeRequest .leave [])))] ∧
      OutputConnection.writes.Run tr s ∧ ¬ReportsOwn OutputConnection.handler tr) ∧
    ∃ tr s, tr = [(.write (makeResponse .clientConnected []), none),
        (.write (makeResponse .leaveSuccess []), none),
        (.complete 0, some (.onWriteSucceed (makeResponse .leaveSuccess [])))] ∧
      InputConnection.writes.Run tr s ∧ ¬ReportsOwn InputConnection.handler tr := by
  constructor
  · refine ⟨_, _, rfl, ((Machine.Run.nil.snoc rfl).snoc rfl).snoc rfl, ?_⟩
    intro hown
    have hfirst := Option.some.inj (hown 0 _ _ rfl rfl)
    revert hfirst
    decide +kernel
  · refine ⟨_, _, rfl, ((Machine.Run.nil.snoc rfl).snoc rfl).snoc rfl, ?_⟩
    intro hown
    have hfirst := Option.some.inj (hown 0 _ _ rfl rfl)
    revert hfirst
    decide +kernel

end SpaceBattle
