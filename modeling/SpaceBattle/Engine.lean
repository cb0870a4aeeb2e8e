import Mathlib.Logic.Function.Basic
import SpaceBattle.Connection
import SpaceBattle.Lib.AsyncWrite
import SpaceBattle.Pool

/-!
# The engine

`Engine` is the server as `io_service::run` drives it : the pool, and for every live
connection its `InputConnection` and its socket. An event is one completion : a connection
is accepted, the outstanding read of a connection completes or fails, an outstanding write
goes on. What a handler throws leaves `run`, and nothing runs after it (`fault`).

A connection whose read fails is closed and destroyed, with every other of its id. What is
outstanding on them, the writes and the reads of the others, is completed by asio with
`operation_aborted` (`aborted`), and its handler reads a callback of an `InputConnection`
that is gone. What the server does from there on is undefined, so this is a fault as well.
A write that fails on a live connection is not told from one that completes : nobody has
set `m_on_write_failed`, and `on_write_success` does nothing.

The bytes of a read, the memory behind the buffer, the heap a response is written into,
the errors of the socket and the schedule of the partial writes are all part of the event.
An engine that has not stopped is its pool after the pool's own events (`pool_of_run`), and
its rooms are a lobby's after the lobby's (`lobby_of_run`), so what holds of every run of
the pool or the lobby holds under any bytes on any connection.
-/

namespace SpaceBattle

open Cpp AsyncWrite

/-- What the service holds of a connection. -/
structure Session where
  input : InputConnection
  socket : Socket UInt8

/-- A connection that has just been accepted. -/
def Session.new : Session :=
  ⟨InputConnection.new, Socket.new⟩

/-- An operation outstanding on a socket : its read, or the `k`-th of its writes. -/
inductive Operation
  | read
  | write (k : ℕ)
  deriving DecidableEq

instance (x : ℕ × Operation) (aborted : List (ℕ × Operation)) : Decidable (x ∈ aborted) :=
  inferInstance

/-- `Engine`, with the sessions of its connections by handle. -/
structure Engine where
  /-- `m_input_collection`. -/
  connections : InputConnectionPool
  session : ℕ → Session
  /-- The operations that were outstanding on connections when they were destroyed, by
  handle. Their handlers are still to run. -/
  aborted : List (ℕ × Operation)
  /-- What ended `io_service::run`. -/
  fault : Option Fault

namespace Engine

/-- What can happen to the engine. An error of the socket is given by its text. -/
inductive Event
  | accept
  | received (handle : ℕ) (data beyond : List UInt8) (heap : ℕ → UInt8)
  | failed (handle : ℕ) (shutdown close : Option String)
  | wrote (handle k n : ℕ)
  | aborted (handle : ℕ) (operation : Operation)

/-- The connection an event belongs to. -/
def Event.handle : Event → Option ℕ
  | accept => none
  | received handle _ _ _ => some handle
  | failed handle _ _ => some handle
  | wrote handle _ _ => some handle
  | aborted handle _ => some handle

/-- `asio::detail::throw_error`. -/
def throwOn (ec : Option String) : Except Exn Unit :=
  match ec with
  | none => .ok ()
  | some what => .error (.systemError what)

/-- The engine with another session of a connection. -/
def setSession (s : Engine) (handle : ℕ) (session : Session) : Engine :=
  { s with session := Function.update s.session handle session }

@[simp] theorem setSession_session_self (s : Engine) (handle : ℕ) (session : Session) :
    (s.setSession handle session).session handle = session :=
  Function.update_self _ _ _

theorem setSession_session_of_ne (s : Engine) (session : Session) {h h' : ℕ} (hne : h' ≠ h) :
    (s.setSession h session).session h' = s.session h' :=
  Function.update_of_ne hne _ _

/-! ## The handlers -/

/-- The connection handed to `on_accept` is inserted and starts to read. -/
def onAccept (s : Engine) : Engine :=
  { s.setSession s.connections.accepted Session.new with connections := s.connections.insert.2 }

/-- The header's read has completed, `mem` the memory from `m_data` on. -/
def onHeader (s : Engine) (handle : ℕ) (mem : List UInt8) : Engine :=
  match (s.session handle).input.onHeader mem with
  | .error e => { s with fault := some (.thrown e) }
  | .ok input => s.setSession handle { s.session handle with input := input }

/-- The body's read has completed : `on_read_success` and the next `read`. -/
def onBody (s : Engine) (c : Protocol) (mem : List UInt8) (heap : ℕ → UInt8) :
    Engine × Option Response :=
  let session := s.session c.handle
  match c.requestProcesser.process s.connections.roomInterface (session.input.request mem) with
  | .error fault => ({ s with fault := some fault }, none)
  | .ok (response, rp, rooms) =>
    let socket := session.socket.asyncWrite (InputConnection.write heap response)
    ({ s.setSession c.handle ⟨session.input.read, socket⟩ with
      connections := { s.connections.assign c.handle rp with roomInterface := rooms } },
      some response)

/-- `InputConnection::close` up to `m_on_close`. -/
def close (shutdown close : Option String) : Except Exn Unit := do
  throwOn shutdown
  throwOn close

/-- What is outstanding on the connections with the id of `c`, whose own read has failed.
`writes` is the number of writes outstanding on each connection. -/
def outstanding (connections : InputConnectionPool) (writes : ℕ → ℕ) (c : Protocol) :
    List (ℕ × Operation) :=
  (connections.inputCollection.filter fun p => p.id = c.id).flatMap fun p =>
    (if p.handle = c.handle then [] else [(p.handle, .read)]) ++
      (List.range (writes p.handle)).map fun k => (p.handle, .write k)

/-- The number of writes outstanding on a connection. -/
def writes (s : Engine) (handle : ℕ) : ℕ :=
  (s.session handle).socket.outstanding.length

/-- `Protocol::on_read_fail`. Closing the sockets aborts what is outstanding on them. -/
def onReadFail (s : Engine) (c : Protocol) (shutdown closed : Option String) : Engine :=
  let rooms := c.requestProcesser.removeFromRoom s.connections.roomInterface
  let left : InputConnectionPool := { s.connections with roomInterface := rooms }
  match close shutdown closed with
  | .error e => { s with connections := left, fault := some (.thrown e) }
  | .ok () => { s with
      connections := left.remove c.id
      aborted := s.aborted ++ outstanding s.connections s.writes c }

/-- The handler of a read or a write of a connection that has been destroyed : it looks for
`m_on_read_failed`, or `m_on_write_failed`, of the connection. -/
def onAborted (s : Engine) : Engine :=
  { s with fault := some .destroyed }

/-- One completion, and the answer to a request. -/
def step (s : Engine) (e : Event) : Option (Engine × Option Response) :=
  if s.fault.isSome then none
  else
    match e with
    | .accept => some (s.onAccept, none)
    | .received handle data beyond heap =>
      match s.connections.find handle with
      | none => none
      | some c =>
        if data.length ≠ (s.session handle).input.wanted then none
        else
          match (s.session handle).input.reading with
          | .header => some (s.onHeader handle (data ++ beyond), none)
          | .body => some (s.onBody c (data ++ beyond) heap)
    | .failed handle shutdown closed =>
      match s.connections.find handle with
      | none => none
      | some c => some (s.onReadFail c shutdown closed, none)
    | .wrote handle k n =>
      match s.connections.find handle with
      | none => none
      | some _ =>
        match (s.session handle).socket.progress k n with
        | none => none
        | some socket =>
          some (s.setSession handle { s.session handle with socket := socket }, none)
    | .aborted handle operation =>
      if (handle, operation) ∈ s.aborted then some (s.onAborted, none) else none

end Engine

open Engine

/-- The engine, from no connections. -/
def engine : Machine Engine Engine.Event (Option Response) :=
  ⟨⟨pool.init, fun _ => Session.new, [], none⟩, Engine.step⟩

namespace Engine

/-! ## Steps -/

/-- A read of a live connection completes when its buffer is full. -/
theorem step_received {s : Engine} {c : Protocol} {h : ℕ} (hfault : s.fault = none)
    (hfind : s.connections.find h = some c) {data : List UInt8}
    (hlength : data.length = (s.session h).input.wanted) (beyond : List UInt8)
    (heap : ℕ → UInt8) : step s (.received h data beyond heap) =
      match (s.session h).input.reading with
      | .header => some (s.onHeader h (data ++ beyond), none)
      | .body => some (s.onBody c (data ++ beyond) heap) := by
  cases hreading : (s.session h).input.reading <;>
    simp only [step, hfault, hfind, hlength, hreading, Option.isSome_none, Bool.false_eq_true,
      if_false, ne_eq, not_true_eq_false]

/-- What a completion does, when nothing has been thrown before. -/
inductive Completion (s : Engine) : Event → Option Response → Engine → Prop
  | accepted : Completion s .accept none s.onAccept
  | decoded {c : Protocol} {data beyond : List UInt8} {heap : ℕ → UInt8} {input : InputConnection}
      (hfind : s.connections.find c.handle = some c)
      (hreading : (s.session c.handle).input.reading = .header) (hlength : data.length = 25)
      (hheader : (s.session c.handle).input.onHeader (data ++ beyond) = .ok input) :
      Completion s (.received c.handle data beyond heap) none
        (s.setSession c.handle { s.session c.handle with input := input })
  | refused {c : Protocol} {data beyond : List UInt8} {heap : ℕ → UInt8} {e : Exn}
      (hfind : s.connections.find c.handle = some c)
      (hreading : (s.session c.handle).input.reading = .header) (hlength : data.length = 25)
      (hheader : (s.session c.handle).input.onHeader (data ++ beyond) = .error e) :
      Completion s (.received c.handle data beyond heap) none
        { s with fault := some (.thrown e) }
  | answered {c : Protocol} {data beyond : List UInt8} {heap : ℕ → UInt8} {response : Response}
      {rp : RequestProcesser} {rooms : RoomInterface} (hfind : s.connections.find c.handle = some c)
      (hreading : (s.session c.handle).input.reading = .body)
      (hprocess : c.requestProcesser.process s.connections.roomInterface
        ((s.session c.handle).input.request (data ++ beyond)) = .ok (response, rp, rooms)) :
      Completion s (.received c.handle data beyond heap) (some response)
        { s.setSession c.handle ⟨(s.session c.handle).input.read,
            (s.session c.handle).socket.asyncWrite (InputConnection.write heap response)⟩ with
          connections := { s.connections.assign c.handle rp with roomInterface := rooms } }
  | lost {c : Protocol} (hfind : s.connections.find c.handle = some c) :
      Completion s (.failed c.handle none none) none
        { s with
          connections := ({ s.connections with
            roomInterface := c.requestProcesser.removeFromRoom s.connections.roomInterface } :
              InputConnectionPool).remove c.id
          aborted := s.aborted ++ outstanding s.connections s.writes c }
  | unclosed {c : Protocol} {shutdown closed : Option String} {e : Exn}
      (hfind : s.connections.find c.handle = some c) (hclose : close shutdown closed = .error e) :
      Completion s (.failed c.handle shutdown closed) none
        { s with
          connections := { s.connections with
            roomInterface := c.requestProcesser.removeFromRoom s.connections.roomInterface },
          fault := some (.thrown e) }
  | wrote {c : Protocol} {k n : ℕ} {socket : Socket UInt8}
      (hfind : s.connections.find c.handle = some c)
      (hprogress : (s.session c.handle).socket.progress k n = some socket) :
      Completion s (.wrote c.handle k n) none
        (s.setSession c.handle { s.session c.handle with socket := socket })
  | aborted {h : ℕ} {operation : Operation} (hmem : (h, operation) ∈ s.aborted) :
      Completion s (.aborted h operation) none s.onAborted

/-- What is outstanding belongs to connections with the id. -/
theorem mem_outstanding {connections : InputConnectionPool} {writes : ℕ → ℕ} {c : Protocol}
    {x : ℕ × Operation} (hx : x ∈ outstanding connections writes c) :
    ∃ p ∈ connections.inputCollection, p.id = c.id ∧ x.1 = p.handle := by
  obtain ⟨p, hp, hx⟩ := List.mem_flatMap.1 hx
  obtain ⟨hp, hid⟩ := List.mem_filter.1 hp
  refine ⟨p, hp, of_decide_eq_true hid, ?_⟩
  rcases List.mem_append.1 hx with hx | hx
  · split at hx
    · cases hx
    · rw [List.mem_singleton.1 hx]
  · obtain ⟨k, -, rfl⟩ := List.mem_map.1 hx
    rfl

theorem close_eq_ok_iff {shutdown closed : Option String} :
    close shutdown closed = .ok () ↔ shutdown = none ∧ closed = none := by
  cases shutdown <;> cases closed <;> simp [close, throwOn]

section

variable {s : Engine} {c : Protocol} (hfind : s.connections.find c.handle = some c)

include hfind

theorem completion_onHeader {data beyond : List UInt8} {heap : ℕ → UInt8}
    (hreading : (s.session c.handle).input.reading = .header) (hlength : data.length = 25) :
    Completion s (.received c.handle data beyond heap) none
      (s.onHeader c.handle (data ++ beyond)) := by
  unfold onHeader
  cases hheader : (s.session c.handle).input.onHeader (data ++ beyond) with
  | error e => exact .refused hfind hreading hlength hheader
  | ok input => exact .decoded hfind hreading hlength hheader

/-- Processing a request throws nothing. -/
theorem completion_onBody (data beyond : List UInt8) (heap : ℕ → UInt8)
    (hreading : (s.session c.handle).input.reading = .body) :
    Completion s (.received c.handle data beyond heap) (s.onBody c (data ++ beyond) heap).2
      (s.onBody c (data ++ beyond) heap).1 := by
  obtain ⟨response, rp, rooms, hprocess, -⟩ := RequestProcesser.process_outcome c.requestProcesser
    s.connections.roomInterface ((s.session c.handle).input.request (data ++ beyond))
  simp only [onBody, hprocess]
  exact .answered hfind hreading hprocess

theorem completion_onReadFail (shutdown closed : Option String) :
    Completion s (.failed c.handle shutdown closed) none (s.onReadFail c shutdown closed) := by
  unfold onReadFail
  cases hclose : close shutdown closed with
  | error e => exact .unclosed hfind hclose
  | ok _ =>
    obtain ⟨rfl, rfl⟩ := close_eq_ok_iff.1 hclose
    exact .lost hfind

end

/-- A step is a completion in an engine that runs. -/
theorem completion_of_step {s s' : Engine} {e : Event} {o : Option Response}
    (hstep : engine.step s e = some (s', o)) : s.fault = none ∧ Completion s e o s' := by
  have hfault : s.fault = none := by
    by_contra hne
    simp [engine, step, Option.isSome_iff_ne_none.2 hne] at hstep
  refine ⟨hfault, ?_⟩
  have hhandled (h : ℕ) (he : e.handle = some h) (hlive : ∀ operation, e ≠ .aborted h operation) :
      ∃ c, s.connections.find h = some c ∧ c.handle = h := by
    cases hfind : s.connections.find h with
    | none =>
      cases e with
      | aborted _ operation => cases he; exact absurd rfl (hlive operation)
      | accept | received | failed | wrote =>
        cases he <;> simp [engine, step, hfault, hfind] at hstep
    | some c => exact ⟨c, rfl, (InputConnectionPool.find_spec hfind).2⟩
  cases e with
  | accept =>
    obtain ⟨rfl, rfl⟩ : s.onAccept = s' ∧ none = o := by
      simpa [engine, step, hfault] using hstep
    exact .accepted
  | received h data beyond heap =>
    obtain ⟨c, hfind, rfl⟩ := hhandled h rfl (by simp)
    obtain ⟨hlength, hstep⟩ : data.length = (s.session c.handle).input.wanted ∧
        (match (s.session c.handle).input.reading with
          | .header => some (s.onHeader c.handle (data ++ beyond), none)
          | .body => some (s.onBody c (data ++ beyond) heap)) = some (s', o) := by
      simpa [engine, step, hfault, hfind] using hstep
    cases hreading : (s.session c.handle).input.reading with
    | header =>
      obtain ⟨rfl, rfl⟩ : s.onHeader c.handle (data ++ beyond) = s' ∧ none = o := by
        simpa [hreading] using hstep
      exact completion_onHeader hfind hreading
        (by rw [hlength, InputConnection.wanted, hreading])
    | body =>
      have hbody : s.onBody c (data ++ beyond) heap = (s', o) := by simpa [hreading] using hstep
      have hcompletion := completion_onBody hfind data beyond heap hreading
      rwa [hbody] at hcompletion
  | failed h shutdown closed =>
    obtain ⟨c, hfind, rfl⟩ := hhandled h rfl (by simp)
    obtain ⟨rfl, rfl⟩ : s.onReadFail c shutdown closed = s' ∧ none = o := by
      simpa [engine, step, hfault, hfind] using hstep
    exact completion_onReadFail hfind shutdown closed
  | wrote h k n =>
    obtain ⟨c, hfind, rfl⟩ := hhandled h rfl (by simp)
    cases hprogress : (s.session c.handle).socket.progress k n with
    | none => simp [engine, step, hfault, hfind, hprogress] at hstep
    | some socket =>
      obtain ⟨rfl, rfl⟩ : s.setSession c.handle { s.session c.handle with socket := socket } = s' ∧
          none = o := by simpa [engine, step, hfault, hfind, hprogress] using hstep
      exact .wrote hfind hprogress
  | aborted h operation =>
    obtain ⟨hmem, rfl, rfl⟩ : (h, operation) ∈ s.aborted ∧ s.onAborted = s' ∧ none = o := by
      simpa [engine, step, hfault] using hstep
    exact .aborted hmem

/-- Only a handler of a connection that is gone leaves the fault `destroyed`. -/
theorem Completion.destroyed_iff {s s' : Engine} {e : Event} {o : Option Response}
    (h : Completion s e o s') (hfault : s.fault = none) :
    s'.fault = some .destroyed ↔ ∃ handle operation, e = .aborted handle operation := by
  cases h with
  | accepted | decoded | answered | wrote | lost => simp [onAccept, setSession, hfault]
  | refused | unclosed => simp
  | aborted => simp [onAborted]

/-! ## The pool of an engine -/

/-- A completion that throws nothing is an event of the pool, or leaves it as it is. -/
theorem Completion.pool_step {s s' : Engine} {e : Event} {o : Option Response}
    (h : Completion s e o s') (hfault : s'.fault = none) :
    (s'.connections = s.connections ∧ o = none) ∨
      ∃ e', pool.step s.connections e' = some (s'.connections, o) := by
  cases h with
  | accepted => exact Or.inr ⟨.accept, rfl⟩
  | decoded | wrote => exact Or.inl ⟨rfl, rfl⟩
  | refused | unclosed | aborted => cases hfault
  | @answered c data beyond _ _ _ _ hfind _ hprocess =>
    refine Or.inr ⟨.request c.handle ((s.session c.handle).input.request (data ++ beyond)), ?_⟩
    simp [pool, InputConnectionPool.step, hfind, hprocess]
  | @lost c hfind =>
    refine Or.inr ⟨.lost c.handle, ?_⟩
    simp [pool, InputConnectionPool.step, hfind]

/-- The pool of an engine that has not stopped is reached by a run of the pool that gives
the same answers. -/
theorem pool_of_run {tr : List (Event × Option Response)} {s : Engine} (h : engine.Run tr s)
    (hfault : s.fault = none) : ∃ ptr, pool.Run ptr s.connections ∧
      ptr.filterMap Prod.snd = tr.filterMap Prod.snd := by
  induction h with
  | nil => exact ⟨[], .nil, rfl⟩
  | snoc _ hstep ih =>
    obtain ⟨hbefore, hcompletion⟩ := completion_of_step hstep
    obtain ⟨ptr, hrun, hanswers⟩ := ih hbefore
    rcases hcompletion.pool_step hfault with ⟨hsame, rfl⟩ | ⟨e', hstep'⟩
    · exact ⟨ptr, hsame ▸ hrun, by simp [hanswers]⟩
    · refine ⟨_, hrun.snoc hstep', ?_⟩
      rw [List.filterMap_append, List.filterMap_append, hanswers]
      rfl

/-- Its rooms are those of a lobby whose clients got the same answers. -/
theorem lobby_of_run {tr : List (Event × Option Response)} {s : Engine} (h : engine.Run tr s)
    (hfault : s.fault = none) : ∃ ltr l, lobby.Run ltr l ∧
      l.rooms = s.connections.roomInterface ∧
      ltr.filterMap Prod.snd = tr.filterMap Prod.snd := by
  obtain ⟨ptr, hrun, hanswers⟩ := pool_of_run h hfault
  obtain ⟨ltr, l, hlobby, hrooms, hsame⟩ := InputConnectionPool.lobby_of_run hrun
  exact ⟨ltr, l, hlobby, hrooms, hsame.trans hanswers⟩

/-- While the engine runs no handle is used twice. -/
theorem handles_of_run {tr : List (Event × Option Response)} {s : Engine} (h : engine.Run tr s)
    (hfault : s.fault = none) : s.connections.Handles := by
  obtain ⟨_, hrun, -⟩ := pool_of_run h hfault
  exact InputConnectionPool.handles_of_run hrun

end Engine

end SpaceBattle
