import SpaceBattle.Engine

/-!
# Pipelined requests

`read_body` starts the next read as soon as `on_read` has started to write the answer, so
a client that does not wait for its answers has several writes outstanding on one socket,
which may progress in any order. `Framed` : under every schedule of the partial writes the
wire of a connection is a prefix of its answers in the order they were processed.
`framed_iff` : a run is framed if and only if each body it reads finds no write
outstanding.
-/

namespace SpaceBattle

open Cpp AsyncWrite

namespace Engine

/-! ## Answers in order -/

/-- The bytes an event adds to the answers of the connection. -/
def answer (handle : ℕ) : Event × Option Response → List UInt8
  | (e, some response) => if e.handle = some handle then response.bytes else []
  | (_, none) => []

/-- The encoded answers of the connection, in the order they were processed. -/
def answers (handle : ℕ) (tr : List (Event × Option Response)) : List UInt8 :=
  tr.flatMap (answer handle)

/-- The events are partial writes of the connection. -/
def Writes (handle : ℕ) (ws : List (Event × Option Response)) : Prop :=
  ∀ x ∈ ws, ∃ k n, x.1 = .wrote handle k n

/-- At every moment of the run, and however the outstanding writes go on from there, the
wire of the connection is a prefix of its answers. -/
def Framed (handle : ℕ) (tr : List (Event × Option Response)) : Prop :=
  ∀ tr₁ ws s, tr₁ <+: tr → Writes handle ws → engine.Run (tr₁ ++ ws) s →
    (s.session handle).socket.wire <+: answers handle (tr₁ ++ ws)

/-- When a body of the connection has been read, no answer is being written. -/
def Sequential (handle : ℕ) (s : Engine) (e : Event) (_ : Option Response) (_ : Engine) : Prop :=
  (∃ data beyond heap, e = .received handle data beyond heap) →
    (s.session handle).input.reading = .body → (s.session handle).socket.outstanding = []

@[simp] theorem answer_none (h : ℕ) (e : Event) : answer h (e, none) = [] :=
  rfl

@[simp] theorem answer_self (h : ℕ) (data beyond : List UInt8) (heap : ℕ → UInt8)
    (response : Response) :
    answer h (.received h data beyond heap, some response) = response.bytes :=
  if_pos rfl

theorem answer_of_ne {h h' : ℕ} (hne : h' ≠ h) (data beyond : List UInt8) (heap : ℕ → UInt8)
    (response : Response) : answer h (.received h' data beyond heap, some response) = [] :=
  if_neg fun heq => hne (Option.some.inj heq)

theorem answers_snoc (h : ℕ) (tr : List (Event × Option Response)) (x : Event × Option Response) :
    answers h (tr ++ [x]) = answers h tr ++ answer h x := by
  simp [answers]

theorem Framed.of_snoc {h : ℕ} {tr : List (Event × Option Response)}
    {x : Event × Option Response} (hframed : Framed h (tr ++ [x])) : Framed h tr :=
  fun tr₁ ws s hpre => hframed tr₁ ws s (hpre.trans (List.prefix_append _ _))

/-! ## Steps -/

/-- The server writes the encoding of an answer, which begins with two different bytes. -/
theorem process_bytes {rp rp' : RequestProcesser} {rooms rooms' : RoomInterface}
    {request : Request} {response : Response}
    (hprocess : rp.process rooms request = .ok (response, rp', rooms')) :
    (∀ heap, InputConnection.write heap response = response.bytes) ∧
      ∃ rest, response.bytes = 0x2A :: 0 :: rest := by
  obtain ⟨resp, rp₁, rooms₁, hok, ho⟩ := RequestProcesser.process_outcome rp rooms request
  obtain ⟨rfl, -, -⟩ : resp = response ∧ rp₁ = rp' ∧ rooms₁ = rooms' := by
    simpa using hok.symm.trans hprocess
  obtain ⟨code, body, rfl⟩ := ho.eq_makeResponse
  exact ⟨fun heap => InputConnection.write_eq heap (code_makeResponse code body), _, rfl⟩

/-- A connection that has not been accepted has no answers. -/
theorem answers_eq_nil {tr : List (Event × Option Response)} {s : Engine} (hrun : engine.Run tr s)
    {h : ℕ} (hlater : s.connections.accepted ≤ h) : answers h tr = [] := by
  induction hrun with
  | nil => rfl
  | @snoc tr s s' e o hrun hstep ih =>
    obtain ⟨hfault, hcompletion⟩ := completion_of_step hstep
    have hhandles := handles_of_run hrun hfault
    rw [answers_snoc]
    cases hcompletion with
    | accepted => rw [ih (Nat.le_of_succ_le hlater), answer_none, List.nil_append]
    | decoded | refused | lost | unclosed | wrote | aborted =>
      rw [ih hlater, answer_none, List.nil_append]
    | @answered c _ _ _ _ _ _ hfind =>
      have hc := (InputConnectionPool.find_spec hfind).1
      have hlt := hhandles.lt_accepted hc
      rw [ih hlater, answer_of_ne (hlt.trans_le hlater).ne, List.nil_append]

/-- A sequential completion keeps the writes of the connection in the order of its
answers. -/
theorem inOrder_step {s s' : Engine} {e : Event} {o : Option Response} {h : ℕ}
    {written : List UInt8} (hs : (s.session h).socket.InOrder written)
    (hcompletion : Completion s e o s') (hnew : s.connections.accepted = h → written = [])
    (hsequential : Sequential h s e o s') :
    (s'.session h).socket.InOrder (written ++ answer h (e, o)) := by
  cases hcompletion with
  | accepted =>
    rw [answer_none, List.append_nil]
    rcases eq_or_ne h s.connections.accepted with rfl | hne
    · rw [hnew rfl]
      simpa [onAccept, Session.new] using Socket.inOrder_new
    · simpa [onAccept, setSession_session_of_ne s _ hne] using hs
  | @decoded c =>
    rw [answer_none, List.append_nil]
    rcases eq_or_ne h c.handle with rfl | hne
    · simpa using hs
    · simpa [setSession_session_of_ne s _ hne] using hs
  | refused | lost | unclosed | aborted =>
    rw [answer_none, List.append_nil]
    exact hs
  | @answered c _ _ _ _ _ _ hfind hreading hprocess =>
    rcases eq_or_ne h c.handle with rfl | hne
    · obtain ⟨hwrite, rest, hbytes⟩ := process_bytes hprocess
      have hnone := hsequential ⟨_, _, _, rfl⟩ hreading
      rw [answer_self, hwrite]
      simpa using hs.asyncWrite hnone (by rw [hbytes]; exact List.cons_ne_nil _ _)
    · rw [answer_of_ne hne.symm, List.append_nil]
      simpa [setSession_session_of_ne s _ hne] using hs
  | @wrote c _ _ _ _ hprogress =>
    rw [answer_none, List.append_nil]
    rcases eq_or_ne h c.handle with rfl | hne
    · simpa using hs.progress hprogress
    · simpa [setSession_session_of_ne s _ hne] using hs

/-- A body that has been read is answered, and the connection starts to write the answer,
whatever it is writing. -/
theorem answered_of_body {s s' : Engine} {h : ℕ} {data beyond : List UInt8} {heap : ℕ → UInt8}
    {o : Option Response} (hstep : engine.step s (.received h data beyond heap) = some (s', o))
    (hreading : (s.session h).input.reading = .body) :
    ∃ response rest, o = some response ∧ response.bytes = 0x2A :: 0 :: rest ∧ s'.fault = none ∧
      (∃ c, s'.connections.find h = some c) ∧
      (s'.session h).socket = (s.session h).socket.asyncWrite response.bytes := by
  obtain ⟨hfault, hcompletion⟩ := completion_of_step hstep
  cases hcompletion with
  | decoded _ hheader | refused _ hheader => simp [hheader] at hreading
  | @answered c _ _ _ response rp rooms hfind _ hprocess =>
    obtain ⟨hwrite, rest, hbytes⟩ := process_bytes hprocess
    refine ⟨response, rest, rfl, hbytes, hfault, ?_, by simp [hwrite]⟩
    have hname := InputConnectionPool.exists_find_iff.1 ⟨c, hfind⟩
    rw [InputConnectionPool.exists_find_iff, InputConnectionPool.names_assign]
    exact hname

/-- An outstanding write of a live connection can go on. -/
theorem step_wrote {s : Engine} (hfault : s.fault = none) {h : ℕ}
    (hfind : ∃ c, s.connections.find h = some c) {k n : ℕ} {socket : Socket UInt8}
    (hprogress : (s.session h).socket.progress k n = some socket) :
    engine.step s (.wrote h k n) =
      some (s.setSession h { s.session h with socket := socket }, none) := by
  obtain ⟨c, hfind⟩ := hfind
  simp [engine, step, hfault, hfind, hprogress]

/-! ## Runs -/

/-- Along a sequential run the wire and the rest of the write in progress are the answers. -/
theorem inOrder_of_run {h : ℕ} {tr : List (Event × Option Response)} {s : Engine}
    (hrun : engine.Run tr s) (hsequential : engine.Along (Sequential h) tr) :
    (s.session h).socket.InOrder (answers h tr) := by
  induction hrun with
  | nil => exact Socket.inOrder_new
  | @snoc tr s s' e o hrun hstep ih =>
    obtain ⟨hbefore, hlast⟩ := (Machine.along_snoc hrun hstep).1 hsequential
    rw [answers_snoc]
    exact inOrder_step (ih hbefore) (completion_of_step hstep).2
      (fun heq => answers_eq_nil hrun heq.le) hlast

/-- A body read while an answer is being written lets the schedule break the order. -/
theorem sequential_of_framed {h : ℕ} {tr : List (Event × Option Response)} {s s' : Engine}
    {e : Event} {o : Option Response} (hrun : engine.Run tr s)
    (hstep : engine.step s e = some (s', o)) (hs : (s.session h).socket.InOrder (answers h tr))
    (hframed : Framed h (tr ++ [(e, o)])) : Sequential h s e o s' := by
  rintro ⟨data, beyond, heap, rfl⟩ hreading
  by_contra hne
  obtain ⟨response, rest, rfl, hbytes, hfault, hfind, hsocket⟩ := answered_of_body hstep hreading
  obtain ⟨n, m, s₁, s₂, h₁, h₂, hbroken⟩ := hs.overlap hne (by decide : (0x2A : UInt8) ≠ 0) rest
  rw [← hbytes, ← hsocket] at h₁
  have hfirst := step_wrote hfault hfind h₁
  have hsecond := step_wrote (s := s'.setSession h { s'.session h with socket := s₁ }) hfault hfind
    (by rw [setSession_session_self]; exact h₂)
  have hruns := ((hrun.snoc hstep).snoc hfirst).snoc hsecond
  rw [List.append_assoc] at hruns
  have hws : Writes h ([(.wrote h 1 n, none)] ++ [(.wrote h 0 m, none)]) := by
    simp [Writes]
  have hpre := hframed _ _ _ (List.prefix_refl _) hws hruns
  refine hbroken ?_
  simpa [answers, hbytes] using hpre

/-- Under every schedule of its partial writes the answers of a connection leave in order
if and only if each body is read when no answer is being written. -/
theorem framed_iff {tr : List (Event × Option Response)} {s : Engine} (hrun : engine.Run tr s)
    (h : ℕ) : Framed h tr ↔ engine.Along (Sequential h) tr := by
  refine ⟨fun hframed => ?_, fun hsequential tr₁ ws s₁ hpre hws hrun₁ => ?_⟩
  · induction hrun with
    | nil => exact Machine.along_nil
    | snoc hrun hstep ih =>
      have hbefore := ih hframed.of_snoc
      exact (Machine.along_snoc hrun hstep).2
        ⟨hbefore, sequential_of_framed hrun hstep (inOrder_of_run hrun hbefore) hframed⟩
  · refine (inOrder_of_run hrun₁ ((hsequential.of_prefix hpre).append ?_)).wire_prefix_written
    rintro ⟨e, o⟩ hx s₂ s₃ ⟨_, _, _, rfl⟩
    obtain ⟨k, n, hwrote⟩ := hws _ hx
    cases hwrote

/-- Two requests, the second sent after the answer to the first has left. -/
theorem framed_iff_two : ∃ tr s, engine.Run tr s ∧ (s.session 0).socket.outstanding = [] ∧
    (s.session 0).socket.wire.length = 2 * 27 ∧
    (Framed 0 tr ↔ engine.Along (Sequential 0) tr) := by
  have hrun := Machine.run_of_isSome engine
    [.accept,
      .received 0 (makeRequest .nbrPeopleLoggedIn []).bytes [] fun _ => 0,
      .received 0 [] [] fun _ => 0, .wrote 0 0 27,
      .received 0 (makeRequest .nbrPeopleLoggedIn []).bytes [] fun _ => 0,
      .received 0 [] [] fun _ => 0, .wrote 0 0 20, .wrote 0 0 7] (by decide +kernel)
  exact ⟨_, _, hrun, by decide +kernel, by decide +kernel, framed_iff hrun 0⟩

/-- The answer to a request for the games leaves in part, then the whole answer to the next
request, then the rest of the first. -/
theorem interleaved : ∃ tr s, engine.Run tr s ∧
    ¬(s.session 0).socket.wire <+: answers 0 tr := by
  have hrun := Machine.run_of_isSome engine
    [.accept,
      .received 0 ((makeRequest .createGame [List.replicate 60 0x61, lit "1", lit "5",
        lit "30"]).bytes.take 25) [] fun _ => 0,
      .received 0 ((makeRequest .createGame [List.replicate 60 0x61, lit "1", lit "5",
        lit "30"]).bytes.drop 25) [] fun _ => 0,
      .wrote 0 0 27,
      .received 0 (makeRequest .getGameInfo []).bytes [] fun _ => 0,
      .received 0 [] [] fun _ => 0, .wrote 0 0 60,
      .received 0 (makeRequest .nbrPeopleLoggedIn []).bytes [] fun _ => 0,
      .received 0 [] [] fun _ => 0, .wrote 0 1 27, .wrote 0 0 28] (by decide +kernel)
  refine ⟨_, _, hrun, by decide +kernel⟩

end Engine

end SpaceBattle
