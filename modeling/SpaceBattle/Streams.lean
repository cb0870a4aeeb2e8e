import SpaceBattle.Atomicity

/-!
# Byte streams

What the server makes of any bytes at all, on any number of connections whose reads
complete in any order. `Parses` : the read loop of a connection, on all the bytes the
connection has sent, has handed over some requests and goes on from some state. `Refuses` :
it throws, whatever is sent next.

`serves_streams` : the engine is a pool whose requests are, connection by connection, what
the read loop makes of the stream of that connection alone, and whose answers are the
engine's. It has stopped only because the stream of one connection is refused, a close has
failed, or a handler has run on a connection that is gone (`Stopped`), and the streams of the
others have been read all the same.
-/

namespace SpaceBattle

open Cpp AsyncWrite InputConnection Network

namespace Engine

/-! ## What a trace records -/

/-- The read of the connection that the event completes : its bytes and the memory behind
its buffer. -/
def read? (h : ℕ) : Event × Option Response → Option (List UInt8 × List UInt8)
  | (.received h' data beyond _, _) => if h' = h then some (data, beyond) else none
  | _ => none

/-- The answer the event gives, with its connection. -/
def answer? : Event × Option Response → Option (ℕ × Response)
  | (.received h _ _ _, some response) => some (h, response)
  | _ => none

/-- The reads of the connection, in order. -/
def reads (h : ℕ) (tr : List (Event × Option Response)) : List (List UInt8 × List UInt8) :=
  tr.filterMap (read? h)

/-- The bytes of the connection that have been read. -/
def stream (h : ℕ) (tr : List (Event × Option Response)) : List UInt8 :=
  (reads h tr).flatMap Prod.fst

/-- The answers of all connections, in the order they were given. -/
def given (tr : List (Event × Option Response)) : List (ℕ × Response) :=
  tr.filterMap answer?

/-- `beyond` is the memory behind the buffers of the connection's reads. -/
def Behind (h : ℕ) (tr : List (Event × Option Response)) (beyond : ℕ → List UInt8) : Prop :=
  ∀ (i : ℕ) (r : List UInt8 × List UInt8), (reads h tr)[i]? = some r → beyond i = r.2

/-- The loop on what the connection has sent has handed over the requests and goes on from
`input`. -/
def Parses (h : ℕ) (tr : List (Event × Option Response)) (requests : List Request)
    (input : InputConnection) : Prop :=
  ∀ beyond, Behind h tr beyond → ∀ rest, serve beyond 0 InputConnection.new (stream h tr ++ rest) =
    (serve beyond (reads h tr).length input rest).map fun r => (requests ++ r.1, r.2)

/-- The loop on what the connection has sent throws. -/
def Refuses (h : ℕ) (tr : List (Event × Option Response)) (e : Exn) : Prop :=
  ∀ beyond, Behind h tr beyond → ∀ rest,
    serve beyond 0 InputConnection.new (stream h tr ++ rest) = .error e

theorem reads_snoc (h : ℕ) (tr : List (Event × Option Response)) (x : Event × Option Response) :
    reads h (tr ++ [x]) = reads h tr ++ (read? h x).toList := by
  rw [reads, List.filterMap_append, filterMap_singleton_eq_toList]
  rfl

theorem given_snoc (tr : List (Event × Option Response)) (x : Event × Option Response) :
    given (tr ++ [x]) = given tr ++ (answer? x).toList := by
  rw [given, List.filterMap_append, filterMap_singleton_eq_toList]
  rfl

section

variable {h : ℕ} {tr : List (Event × Option Response)} {x : Event × Option Response}
  {requests : List Request} {input : InputConnection}

theorem Behind.of_snoc {beyond : ℕ → List UInt8} (hb : Behind h (tr ++ [x]) beyond) :
    Behind h tr beyond := by
  intro i r hr
  refine hb i r ?_
  rw [reads_snoc, List.getElem?_append_left (List.getElem?_eq_some_iff.1 hr).1, hr]

/-- The loop, where the connection has completed no read. -/
theorem parses_nil : Parses h [] [] InputConnection.new := by
  intro beyond _ rest
  change serve beyond 0 InputConnection.new rest =
    (serve beyond 0 InputConnection.new rest).map fun r => ([] ++ r.1, r.2)
  cases serve beyond 0 InputConnection.new rest <;> rfl

/-- An event that completes no read of the connection leaves its stream. -/
theorem Parses.of_none (hp : Parses h tr requests input) (hx : read? h x = none) :
    Parses h (tr ++ [x]) requests input := by
  have hreads : reads h (tr ++ [x]) = reads h tr := by simp [reads_snoc, hx]
  intro beyond hb rest
  rw [stream, hreads]
  exact hp beyond hb.of_snoc rest

variable {data behind : List UInt8} (hx : read? h x = some (data, behind))

include hx

theorem Behind.last {beyond : ℕ → List UInt8} (hb : Behind h (tr ++ [x]) beyond) :
    beyond (reads h tr).length = behind :=
  hb _ (data, behind) (by simp [reads_snoc, hx])

/-- The loop, one read further. -/
theorem Parses.serve_snoc (hp : Parses h tr requests input) (hlen : data.length = input.wanted)
    {beyond : ℕ → List UInt8} (hb : Behind h (tr ++ [x]) beyond) (rest : List UInt8) :
    serve beyond 0 InputConnection.new (stream h (tr ++ [x]) ++ rest) =
      ((input.turn (data ++ behind)).bind fun t =>
        (serve beyond ((reads h tr).length + 1) t.1 rest).map fun r =>
          (t.2.toList ++ r.1, r.2)).map fun r => (requests ++ r.1, r.2) := by
  have hstream : stream h (tr ++ [x]) = stream h tr ++ data := by simp [stream, reads_snoc, hx]
  rw [hstream, List.append_assoc, hp beyond hb.of_snoc, serve_turn hlen, Behind.last hx hb]

/-- A read that completes takes the loop to its next state, with the request it hands
over. -/
theorem Parses.turn (hp : Parses h tr requests input) (hlen : data.length = input.wanted)
    {t : InputConnection × Option Request} (hturn : input.turn (data ++ behind) = .ok t) :
    Parses h (tr ++ [x]) (requests ++ t.2.toList) t.1 := by
  intro beyond hb rest
  have hlength : (reads h (tr ++ [x])).length = (reads h tr).length + 1 := by
    simp [reads_snoc, hx]
  rw [hp.serve_snoc hx hlen hb, hturn, hlength]
  change Except.map _ (Except.map _ (serve beyond _ t.1 rest)) = _
  cases serve beyond ((reads h tr).length + 1) t.1 rest <;> simp [Except.map]

/-- A header that throws is where the loop throws. -/
theorem Parses.refuses (hp : Parses h tr requests input) (hlen : data.length = input.wanted)
    {e : Exn} (hturn : input.turn (data ++ behind) = .error e) : Refuses h (tr ++ [x]) e := by
  intro beyond hb rest
  rw [hp.serve_snoc hx hlen hb, hturn]
  rfl

end

/-! ## Steps -/

/-- A read completes when its buffer is full. -/
theorem length_of_received {s s' : Engine} {h : ℕ} {data beyond : List UInt8}
    {heap : ℕ → UInt8} {o : Option Response}
    (hstep : engine.step s (.received h data beyond heap) = some (s', o)) :
    data.length = (s.session h).input.wanted := by
  by_contra hne
  cases hfind : s.connections.find h with
  | none => simp [engine, step, hfind] at hstep
  | some c => simp [engine, step, hfind, hne] at hstep

/-- A read that completes is one of a live connection. -/
theorem Completion.exists_find {s s' : Engine} {h : ℕ} {data beyond : List UInt8}
    {heap : ℕ → UInt8} {o : Option Response}
    (hcompletion : Completion s (.received h data beyond heap) o s') :
    ∃ c, s.connections.find h = some c := by
  cases hcompletion with
  | decoded hfind | refused hfind | answered hfind => exact ⟨_, hfind⟩

/-- A connection that has not been accepted keeps its new session. -/
theorem Completion.unused {s s' : Engine} {e : Event} {o : Option Response}
    (hcompletion : Completion s e o s') (hhandles : s.connections.Handles)
    (hunused : ∀ h, s.connections.accepted ≤ h → s.session h = Session.new) {h : ℕ}
    (hle : s'.connections.accepted ≤ h) : s'.session h = Session.new := by
  have hbefore := hcompletion.accepted_le.trans hle
  have hne {c : Protocol} (hfind : s.connections.find c.handle = some c) : h ≠ c.handle := by
    rintro rfl
    have hc := (InputConnectionPool.find_spec hfind).1
    exact absurd (hhandles.lt_accepted hc) hbefore.not_gt
  cases hcompletion with
  | refused | lost | unclosed | aborted => exact hunused h hbefore
  | accepted =>
    have hlater : h ≠ s.connections.accepted := (Nat.lt_of_succ_le hle).ne'
    exact (setSession_session_of_ne s _ hlater).trans (hunused h hbefore)
  | decoded hfind | answered hfind | wrote hfind =>
    exact (setSession_session_of_ne s _ (hne hfind)).trans (hunused h hbefore)

/-- What an event that completes no read leaves of a connection. -/
theorem Completion.input_eq {s s' : Engine} {e : Event} {o : Option Response}
    (hcompletion : Completion s e o s')
    (hunused : ∀ h, s.connections.accepted ≤ h → s.session h = Session.new) {h : ℕ}
    (hnone : read? h (e, o) = none) : (s'.session h).input = (s.session h).input := by
  cases hcompletion with
  | accepted =>
    rcases eq_or_ne h s.connections.accepted with rfl | hne
    · rw [hunused _ le_rfl]
      exact congrArg Session.input (setSession_session_self s _ _)
    · exact congrArg Session.input (setSession_session_of_ne s _ hne)
  | refused | lost | unclosed | aborted => rfl
  | @wrote c _ _ _ =>
    rcases eq_or_ne h c.handle with rfl | hne
    · rw [setSession_session_self]
    · exact congrArg Session.input (setSession_session_of_ne s _ hne)
  | @decoded c | @answered c =>
    have hne : h ≠ c.handle := fun heq => by simp [read?, heq] at hnone
    exact congrArg Session.input (setSession_session_of_ne s _ hne)

/-- The requests of the connection that the pool has processed. -/
def requests (h : ℕ) (ptr : List (InputConnectionPool.Event × Option Response)) : List Request :=
  (on h (served ptr)).map Prod.fst

/-- The requests the pool has processed on each connection are those of its stream, and its
answers are the engine's. -/
structure Parsed (tr : List (Event × Option Response))
    (ptr : List (InputConnectionPool.Event × Option Response)) (s : Engine) : Prop where
  pool : pool.Run ptr s.connections
  parses : ∀ h, Parses h tr (requests h ptr) (s.session h).input
  given : (served ptr).map (fun x => (x.1, x.2.2)) = given tr
  unused : ∀ h, s.connections.accepted ≤ h → s.session h = Session.new

/-- An event of the pool that completes no exchange, or none, of an engine whose connections
have read what they had. -/
theorem Parsed.quiet {tr : List (Event × Option Response)}
    {ptr rest : List (InputConnectionPool.Event × Option Response)} {s s' : Engine}
    {e : Event} {o : Option Response} (hs : Parsed tr ptr s) (hcompletion : Completion s e o s')
    (hpool : SpaceBattle.pool.Run (ptr ++ rest) s'.connections) (hrest : served rest = [])
    (hquiet : answer? (e, o) = none) (hnone : ∀ h, read? h (e, o) = none) :
    Parsed (tr ++ [(e, o)]) (ptr ++ rest) s' := by
  have hserved : served (ptr ++ rest) = served ptr := by
    rw [served, List.filterMap_append]
    exact (congrArg (served ptr ++ ·) hrest).trans (List.append_nil _)
  refine ⟨hpool, fun h => ?_, ?_, fun h hle => ?_⟩
  · rw [requests, hserved, hcompletion.input_eq hs.unused (hnone h)]
    exact (hs.parses h).of_none (hnone h)
  · rw [hserved, hs.given, given_snoc, hquiet]
    exact (List.append_nil _).symm
  · exact hcompletion.unused (InputConnectionPool.handles_of_run hs.pool) hs.unused hle

/-- The read of a connection that completes, with what the pool makes of it. -/
theorem Parsed.received {tr : List (Event × Option Response)}
    {ptr rest : List (InputConnectionPool.Event × Option Response)} {s s' : Engine} {h : ℕ}
    {data beyond : List UInt8} {heap : ℕ → UInt8} {o : Option Response}
    {t : InputConnection × Option Request} (hs : Parsed tr ptr s)
    (hstep : engine.step s (.received h data beyond heap) = some (s', o))
    (hpool : SpaceBattle.pool.Run (ptr ++ rest) s'.connections)
    (hturn : (s.session h).input.turn (data ++ beyond) = .ok t)
    (hinput : (s'.session h).input = t.1)
    (hrequests : ∀ g, requests g rest = if h = g then t.2.toList else [])
    (hanswers : (served rest).map (fun x => (x.1, x.2.2)) =
      (answer? (.received h data beyond heap, o)).toList) :
    Parsed (tr ++ [(.received h data beyond heap, o)]) (ptr ++ rest) s' := by
  obtain ⟨-, hcompletion⟩ := completion_of_step hstep
  have hserved : served (ptr ++ rest) = served ptr ++ served rest := List.filterMap_append
  refine ⟨hpool, fun g => ?_, ?_, fun g hle => ?_⟩
  · rw [requests, hserved, on_append, List.map_append]
    change Parses g _ (requests g ptr ++ requests g rest) _
    rw [hrequests g]
    rcases eq_or_ne h g with rfl | hne
    · rw [if_pos rfl, hinput]
      have hread : read? h (.received h data beyond heap, o) = some (data, beyond) := if_pos rfl
      exact (hs.parses h).turn hread (length_of_received hstep) hturn
    · rw [if_neg hne, List.append_nil, hcompletion.input_eq hs.unused (if_neg hne)]
      exact (hs.parses g).of_none (if_neg hne)
  · rw [hserved, List.map_append, hs.given, hanswers, given_snoc]
  · exact hcompletion.unused (InputConnectionPool.handles_of_run hs.pool) hs.unused hle

/-- A completion that throws nothing. -/
theorem Parsed.step {tr : List (Event × Option Response)}
    {ptr : List (InputConnectionPool.Event × Option Response)} {s s' : Engine} {e : Event}
    {o : Option Response} (hs : Parsed tr ptr s) (hstep : engine.step s e = some (s', o))
    (hfault : s'.fault = none) : ∃ rest, Parsed (tr ++ [(e, o)]) (ptr ++ rest) s' := by
  obtain ⟨-, hcompletion⟩ := completion_of_step hstep
  have hsame : SpaceBattle.pool.Run (ptr ++ []) s.connections := by simpa using hs.pool
  cases hcompletion with
  | accepted =>
    exact ⟨[(.accept, none)], hs.quiet .accepted (hs.pool.snoc rfl) rfl rfl fun _ => rfl⟩
  | wrote hfind hprogress =>
    exact ⟨[], hs.quiet (.wrote hfind hprogress) hsame rfl rfl fun _ => rfl⟩
  | @lost c hfind =>
    refine ⟨[(.lost c.handle, none)], hs.quiet (.lost hfind) (hs.pool.snoc ?_) rfl rfl
      fun _ => rfl⟩
    simp [SpaceBattle.pool, InputConnectionPool.step, hfind]
  | refused | unclosed | aborted => cases hfault
  | decoded hfind hreading hlength hheader =>
    refine ⟨[], hs.received hstep hsame (turn_header hreading hheader) ?_ (fun g => ?_) rfl⟩
    · rw [setSession_session_self]
    · exact (ite_self _).symm
  | @answered c data beyond heap response rp rooms hfind hreading hprocess =>
    refine ⟨[(.request c.handle ((s.session c.handle).input.request (data ++ beyond)),
      some response)], hs.received hstep (hs.pool.snoc ?_) (turn_body _ hreading) ?_
        (fun g => ?_) rfl⟩
    · simp [SpaceBattle.pool, InputConnectionPool.step, hfind, hprocess]
    · exact congrArg Session.input (setSession_session_self s _ _)
    · by_cases hg : c.handle = g <;> simp [requests, served, served?, on, hg]

theorem parsed_nil : Parsed [] [] engine.init :=
  ⟨.nil, fun _ => parses_nil, rfl, fun _ _ => rfl⟩

/-- While the engine runs, every connection has read what it has sent. -/
theorem parsed_of_run {tr : List (Event × Option Response)} {s : Engine} (h : engine.Run tr s)
    (hfault : s.fault = none) : ∃ ptr, Parsed tr ptr s := by
  induction h with
  | nil => exact ⟨[], parsed_nil⟩
  | snoc _ hstep ih =>
    obtain ⟨ptr, hs⟩ := ih (completion_of_step hstep).1
    obtain ⟨rest, hs'⟩ := hs.step hstep hfault
    exact ⟨_, hs'⟩

/-- Why an engine has stopped : the stream of a connection is refused, a close has failed, or a
handler has run on a connection that is gone. The other streams have been read. -/
inductive Stopped (tr : List (Event × Option Response))
    (ptr : List (InputConnectionPool.Event × Option Response)) (s : Engine) : Fault → Prop
  | refused (g : ℕ) (e : Exn) (hrefuses : Refuses g tr e)
      (hothers : ∀ g', g' ≠ g → Parses g' tr (requests g' ptr) (s.session g').input) :
      Stopped tr ptr s (.thrown e)
  | unclosed (g : ℕ) (shutdown closed : Option String) (e : Exn)
      (hlast : tr.getLast? = some (.failed g shutdown closed, none))
      (hclose : close shutdown closed = .error e)
      (hparses : ∀ g', Parses g' tr (requests g' ptr) (s.session g').input) :
      Stopped tr ptr s (.thrown e)
  | destroyed (g : ℕ) (operation : Operation)
      (hlast : tr.getLast? = some (.aborted g operation, none))
      (hparses : ∀ g', Parses g' tr (requests g' ptr) (s.session g').input) :
      Stopped tr ptr s .destroyed

/-- The engine is the pool, on the requests that the streams of its connections hold. -/
theorem serves_streams {tr : List (Event × Option Response)} {s : Engine}
    (h : engine.Run tr s) : ∃ ptr t, pool.Run ptr t ∧
      (served ptr).map (fun x => (x.1, x.2.2)) = given tr ∧
      (s.fault = none → s.connections = t ∧
        ∀ g, Parses g tr (requests g ptr) (s.session g).input) ∧
      ∀ fault, s.fault = some fault → Stopped tr ptr s fault := by
  cases hfault : s.fault with
  | none =>
    obtain ⟨ptr, hs⟩ := parsed_of_run h hfault
    exact ⟨ptr, _, hs.pool, hs.given, fun _ => ⟨rfl, hs.parses⟩, fun _ hsome => by cases hsome⟩
  | some fault =>
    cases h with
    | nil => cases hfault
    | @snoc tr s _ e o hrun hstep =>
      obtain ⟨hbefore, hcompletion⟩ := completion_of_step hstep
      obtain ⟨ptr, hs⟩ := parsed_of_run hrun hbefore
      refine ⟨ptr, _, hs.pool, ?_, (fun hnone => by cases hnone), fun f hf => ?_⟩
      · rw [hs.given, given_snoc]
        cases hcompletion with
        | refused | unclosed | aborted => exact (List.append_nil _).symm
        | accepted | decoded | answered | wrote | lost => cases hbefore.symm.trans hfault
      · obtain rfl := Option.some.inj hf
        cases hcompletion with
        | accepted | decoded | answered | wrote | lost => cases hbefore.symm.trans hfault
        | @refused c data beyond heap e hfind hreading hlength hheader =>
          obtain rfl := Option.some.inj hfault
          refine .refused c.handle e ?_ fun g' hne => ?_
          · have hread : read? c.handle (.received c.handle data beyond heap, none) =
                some (data, beyond) := if_pos rfl
            exact (hs.parses c.handle).refuses hread (length_of_received hstep)
              (turn_error hreading hheader)
          · exact (hs.parses g').of_none (if_neg hne.symm)
        | @unclosed c shutdown closed e hfind hclose =>
          obtain rfl := Option.some.inj hfault
          exact .unclosed c.handle shutdown closed e List.getLast?_concat hclose
            fun g' => (hs.parses g').of_none rfl
        | @aborted h operation =>
          obtain rfl := Option.some.inj hfault
          exact .destroyed h operation List.getLast?_concat fun g' => (hs.parses g').of_none rfl

/-- A client logs in while another sends 25 bytes that are no header. -/
theorem serves_streams_refused : ∃ tr s, engine.Run tr s ∧
    given tr = [(0, makeResponse .clientConnected [lit "1", lit "0"])] ∧
    s.fault = some (.thrown (.invalidArgument "stoi")) ∧ ∃ ptr t, pool.Run ptr t ∧
      (served ptr).map (fun x => (x.1, x.2.2)) = given tr ∧
      (s.fault = none → s.connections = t ∧
        ∀ g, Parses g tr (requests g ptr) (s.session g).input) ∧
      ∀ fault, s.fault = some fault → Stopped tr ptr s fault := by
  have hrun := Machine.run_of_isSome engine
    [.accept, .accept,
      .received 0 ((makeRequest .clientConnect [lit "ada"]).bytes.take 25) [7] fun _ => 0,
      .received 0 ((makeRequest .clientConnect [lit "ada"]).bytes.drop 25) [] fun _ => 0,
      .received 1 (List.replicate 25 0x78) [0] fun _ => 0] (by decide +kernel)
  exact ⟨_, _, hrun, by decide +kernel, by decide +kernel, serves_streams hrun⟩

end Engine

end SpaceBattle
