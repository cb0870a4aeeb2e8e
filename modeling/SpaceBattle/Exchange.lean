import SpaceBattle.Answers
import SpaceBattle.Network

/-!
# Exchanges

What is under way on a connection of the network is one request or one answer at most. The
`Stage` of a connection says what : nothing, a request whose header, or whose body, the
server has not read, or an answer whose header, or whose body, the client has not read. The
bytes in flight are those of the message, exactly, however the partial writes and the reads
of all connections interleave (`Stands`).

A step moves the stage of its own connection and of no other, and the stage accounts for
what has been asked and not answered, and for what has been answered and not delivered
(`Moves`).
-/

namespace SpaceBattle

open Cpp AsyncWrite

/-! ## Names -/

/-- A client that is gone leaves the names of the games. -/
theorem PlainNames.removeFromRoom {rooms : RoomInterface} (h : PlainNames rooms)
    (wf : rooms.WellFormed) (rp : RequestProcesser) : PlainNames (rp.removeFromRoom rooms) := by
  rw [wf.removeFromRoom_eq]
  have hsame : PlainNames ({ rooms with
    general := (rooms.general.removeClient rp.playerId).2 } : RoomInterface) := h
  exact hsame.mapGame fun _ => rfl

namespace Network

/-! ## What a trace records -/

/-- The request the event asks on the connection. -/
def ask? (h : ℕ) : Event × Option Report → Option Request
  | (.ask h' q _, _) => if h' = h then some q.request else none
  | _ => none

/-- The exchange the event completes at the server : the connection, the request and its
answer. -/
def exchange? : Event × Option Report → Option (ℕ × Request × Response)
  | (.received h _ _, some (.answered request response)) => some (h, request, response)
  | _ => none

/-- The response the event delivers on the connection. -/
def deliver? (h : ℕ) : Event × Option Report → Option Response
  | (.delivered h' _, some (.delivered response)) => if h' = h then some response else none
  | _ => none

/-- The requests asked on the connection, in order. -/
def asked (h : ℕ) (tr : List (Event × Option Report)) : List Request :=
  tr.filterMap (ask? h)

/-- The exchanges of all connections, in the order the server answered. -/
def exchanges (tr : List (Event × Option Report)) : List (ℕ × Request × Response) :=
  tr.filterMap exchange?

/-- The exchanges of one connection. -/
def on (h : ℕ) (xs : List (ℕ × Request × Response)) : List (Request × Response) :=
  xs.filterMap fun x => if x.1 = h then some x.2 else none

/-- The responses delivered on the connection, in order. -/
def delivered (h : ℕ) (tr : List (Event × Option Report)) : List Response :=
  tr.filterMap (deliver? h)

/-! ## Stages -/

/-- What is under way on a connection. -/
inductive Stage
  | idle
  | asked (q : Question)
  | admitted (q : Question)
  | answered (a : Reply)
  | announced (a : Reply)

namespace Stage

/-- What the client has written and the server has not read. -/
def requestBytes : Stage → List UInt8
  | asked q => q.request.bytes
  | admitted q => q.request.body.bytes
  | _ => []

/-- What the server has written and the client has not read. -/
def answerBytes : Stage → List UInt8
  | answered a => a.response.bytes
  | announced a => a.response.body.bytes
  | _ => []

/-- What the server's end waits for. -/
def Serves : Stage → InputConnection → Prop
  | admitted q, input => input = ⟨.body, q.request.header⟩
  | _, input => input.reading = .header

/-- What the client's end waits for. -/
def Awaits : Stage → OutputConnection → Prop
  | idle, output => output.reading = none
  | announced a, output => output = ⟨some .body, a.response.header⟩
  | _, output => output.reading = some .header

/-- The request that has been asked and not answered. -/
def waiting : Stage → List Request
  | asked q => [q.request]
  | admitted q => [q.request]
  | _ => []

/-- The response that has been given and not delivered. -/
def coming : Stage → List Response
  | answered a => [a.response]
  | announced a => [a.response]
  | _ => []

@[simp] theorem waiting_idle : idle.waiting = [] :=
  rfl

@[simp] theorem coming_idle : idle.coming = [] :=
  rfl

theorem length_waiting_add_coming (stage : Stage) :
    stage.waiting.length + stage.coming.length ≤ 1 := by
  cases stage <;> simp [waiting, coming]

theorem eq_idle_of_reading {stage : Stage} {output : OutputConnection} (h : stage.Awaits output)
    (hreading : output.reading = none) : stage = idle := by
  cases stage with
  | idle => rfl
  | announced a =>
    rw [show output = ⟨some .body, a.response.header⟩ from h] at hreading
    cases hreading
  | asked | admitted | answered => cases h.symm.trans hreading

end Stage

/-- A connection with the session and the client is at the stage. -/
structure Stands (stage : Stage) (session : Session) (peer : Peer) : Prop where
  input : stage.Serves session.input
  output : stage.Awaits peer.output
  requests : peer.requests.Holds stage.requestBytes
  answers : Channel.Holds ⟨session.socket, peer.taken⟩ stage.answerBytes
  running : peer.fault = none

/-- The event takes the connection from one stage to the next. -/
structure Moves (h : ℕ) (x : Event × Option Report) (stage stage' : Stage) : Prop where
  waiting : stage.waiting ++ (ask? h x).toList =
    (on h (exchange? x).toList).map Prod.fst ++ stage'.waiting
  coming : stage.coming ++ (on h (exchange? x).toList).map Prod.snd =
    (deliver? h x).toList ++ stage'.coming

theorem stands_new : Stands .idle Session.new Peer.new :=
  ⟨rfl, rfl, Channel.holds_new, Channel.holds_new, rfl⟩

section

variable {stage : Stage} {session : Session} {peer : Peer} (hs : Stands stage session peer)

include hs

/-! ## The client's part -/

/-- A client that waits for nothing asks. -/
theorem Stands.ask (hreading : peer.output.reading = none) (q : Question) :
    stage = .idle ∧ Stands (.asked q) session { peer with
      requests := peer.requests.write q.request.bytes, output := peer.output.read } := by
  obtain rfl := Stage.eq_idle_of_reading hs.output hreading
  exact ⟨rfl, hs.input, rfl, hs.requests.write (List.cons_ne_nil _ _), hs.answers, hs.running⟩

/-- A part of what the client wrote leaves. -/
theorem Stands.sent {k n : ℕ} {requests : Channel UInt8}
    (hprogress : peer.requests.progress k n = some requests) :
    Stands stage session { peer with requests := requests } :=
  ⟨hs.input, hs.output, hs.requests.progress hprogress, hs.answers, hs.running⟩

/-- The client's read completes when an answer is under way : it decodes the header, or
delivers the answer. -/
theorem Stands.receive {beyond : List UInt8} {peer' : Peer} {o : Option Response}
    (hreceive : peer.receive session.socket beyond = some (peer', o)) :
    (∃ a, stage = .answered a ∧ o = none ∧ Stands (.announced a) session peer') ∨
      ∃ a, stage = .announced a ∧ o = some a.response ∧ Stands .idle session peer' := by
  obtain ⟨-, data, ⟨socket, taken⟩, hread, hcases⟩ := Peer.receive_cases hreceive
  obtain rfl : socket = session.socket := Channel.socket_of_read hread
  obtain ⟨hdata, hrest⟩ := hs.answers.read hread
  obtain ⟨input, output, requests, hanswers, running⟩ := hs
  have hlength := Channel.length_of_read hread
  cases stage with
  | idle =>
    have hnone : peer.output.reading = none := output
    rcases hcases with ⟨hreading, -⟩ | ⟨hreading, -⟩ <;> simp [hnone] at hreading
  | asked | admitted =>
    have hreading : peer.output.reading = some .header := output
    rw [hdata, OutputConnection.wanted, hreading] at hlength
    simp [Stage.answerBytes] at hlength
  | answered a =>
    have hreading : peer.output.reading = some .header := output
    have hwanted : peer.output.wanted = 25 := by rw [OutputConnection.wanted, hreading]
    have hbytes : a.response.bytes = a.response.header.toHeader.bytes ++ a.response.body.bytes :=
      rfl
    have hdecode : peer.output.onHeader (data ++ beyond) =
        .ok ⟨some .body, a.response.header⟩ := by
      rw [hdata, hwanted, Stage.answerBytes, hbytes, a.plain.take_bytes, OutputConnection.onHeader,
        HeaderResponse.ofBuffer_bytes a.plain]
      rfl
    rw [hwanted, Stage.answerBytes, hbytes, a.plain.drop_bytes] at hrest
    rcases hcases with ⟨-, rfl, ⟨e, herror, -⟩ | ⟨output', hok, rfl⟩⟩ | ⟨hbody, -⟩
    · cases herror.symm.trans hdecode
    · obtain rfl := Except.ok.inj (hok.symm.trans hdecode)
      exact Or.inl ⟨a, rfl, rfl, input, rfl, requests, hrest, running⟩
    · simp [hreading] at hbody
  | announced a =>
    have houtput : peer.output = ⟨some .body, a.response.header⟩ := output
    have hwanted : peer.output.wanted = a.response.body.bytes.length := by
      rw [houtput]
      exact a.bufferSize_eq
    have hall : data = a.response.body.bytes := by
      rw [hdata, hwanted]
      exact List.take_length
    have hresponse : peer.output.response (data ++ beyond) = a.response := by
      rw [houtput, hall, OutputConnection.response, a.bufferSize_eq, Body.length_bytes,
        Body.ofBuffer_bytes _ a.zero_notMem]
    rw [hwanted, Stage.answerBytes, List.drop_length] at hrest
    rcases hcases with ⟨hheader, -⟩ | ⟨-, rfl, rfl⟩
    · simp [houtput] at hheader
    · exact Or.inr ⟨a, rfl, by rw [hresponse], input, rfl, requests, hrest, running⟩

/-! ## The server's part -/

/-- A part of what the server wrote leaves. -/
theorem Stands.wrote {k n : ℕ} {socket : Socket UInt8}
    (hprogress : session.socket.progress k n = some socket) :
    Stands stage { session with socket := socket } peer := by
  refine ⟨hs.input, hs.output, hs.requests, ?_, hs.running⟩
  exact hs.answers.progress (by rw [Channel.progress, hprogress]; rfl)

/-- The server's read completes when a request is under way only. -/
theorem Stands.read {data : List UInt8} {requests : Channel UInt8}
    (hread : peer.requests.read session.input.wanted = some (data, requests)) :
    (∃ q, stage = .asked q ∧ session.input.reading = .header ∧
      data = q.request.header.toHeader.bytes ∧ requests.Holds q.request.body.bytes) ∨
    ∃ q, stage = .admitted q ∧ session.input = ⟨.body, q.request.header⟩ ∧
      data = q.request.body.bytes ∧ requests.Holds [] := by
  obtain ⟨hdata, hrest⟩ := hs.requests.read hread
  have hlength := Channel.length_of_read hread
  have hinput := hs.input
  cases stage with
  | asked q =>
    have hreading : session.input.reading = .header := hinput
    have hbytes : q.request.bytes = q.request.header.toHeader.bytes ++ q.request.body.bytes := rfl
    rw [InputConnection.wanted, hreading, Stage.requestBytes, hbytes] at hdata hrest
    rw [q.plain.take_bytes] at hdata
    rw [q.plain.drop_bytes] at hrest
    exact Or.inl ⟨q, rfl, hreading, hdata, hrest⟩
  | admitted q =>
    have heq : session.input = ⟨.body, q.request.header⟩ := hinput
    have hwanted : session.input.wanted = q.request.body.bytes.length := by
      rw [heq]
      exact q.bufferSize_eq
    rw [hwanted, Stage.requestBytes] at hdata hrest
    rw [List.take_length] at hdata
    rw [List.drop_length] at hrest
    exact Or.inr ⟨q, rfl, heq, hdata, hrest⟩
  | idle | answered | announced =>
    have hreading : session.input.reading = .header := hinput
    rw [hdata, InputConnection.wanted, hreading] at hlength
    simp [Stage.requestBytes] at hlength

/-- The header of what was asked has been read. -/
theorem Stands.decoded {q : Question} (hstage : stage = .asked q) {requests : Channel UInt8}
    (hrequests : requests.Holds q.request.body.bytes) :
    Stands (.admitted q) { session with input := ⟨.body, q.request.header⟩ }
      { peer with requests := requests } := by
  subst hstage
  exact ⟨rfl, hs.output, hrequests, hs.answers, hs.running⟩

/-- What was asked has been answered. -/
theorem Stands.answered {q : Question} (hstage : stage = .admitted q) {requests : Channel UInt8}
    (hrequests : requests.Holds []) (a : Reply) (heap : ℕ → UInt8) :
    Stands (.answered a) ⟨session.input.read,
        session.socket.asyncWrite (InputConnection.write heap a.response)⟩
      { peer with requests := requests } := by
  subst hstage
  have hwrite : InputConnection.write heap a.response = a.response.bytes :=
    InputConnection.write_eq heap (code_makeResponse a.code a.payload.strings)
  rw [hwrite]
  exact ⟨rfl, hs.output, hrequests, hs.answers.write (List.cons_ne_nil _ _), hs.running⟩

end

/-! ## Steps -/

theorem on_eq_nil_of_ne {h : ℕ} {x : Event × Option Report} (hne : x.1.handle ≠ some h) :
    on h (exchange? x).toList = [] := by
  obtain ⟨e, o⟩ := x
  cases e with
  | received g =>
    have hgh : g ≠ h := fun heq => hne (congrArg some heq)
    rcases o with _ | _ | _ <;> simp [exchange?, on, hgh]
  | accept | ask | sent | wrote | delivered | failed | aborted => simp [exchange?, on]

/-- An event moves no connection but its own. -/
theorem moves_of_ne {h : ℕ} {x : Event × Option Report} (hne : x.1.handle ≠ some h)
    (stage : Stage) : Moves h x stage stage := by
  have hon := on_eq_nil_of_ne hne
  obtain ⟨e, o⟩ := x
  have hask : ask? h (e, o) = none := by
    cases e with
    | ask g => exact if_neg fun heq => hne (congrArg some heq)
    | accept | sent | received | wrote | delivered | failed | aborted => rfl
  have hdeliver : deliver? h (e, o) = none := by
    cases e with
    | delivered g =>
      rcases o with _ | _ | _
      · rfl
      · rfl
      · exact if_neg fun heq => hne (congrArg some heq)
    | accept | ask | sent | received | wrote | failed | aborted => rfl
  exact ⟨by simp [hon, hask], by simp [hon, hdeliver]⟩

end Network

namespace Engine

/-- A completion leaves the session of another connection as it is. -/
theorem Completion.session_of_ne {s s' : Engine} {e : Event} {o : Option Response}
    (hcompletion : Completion s e o s') {h : ℕ} (hne : e.handle ≠ some h)
    (hnew : e = .accept → h ≠ s.connections.accepted) : s'.session h = s.session h := by
  have hother {g : ℕ} (he : e.handle = some g) : h ≠ g := fun heq => hne (heq ▸ he)
  cases hcompletion with
  | accepted => exact setSession_session_of_ne s _ (hnew rfl)
  | decoded | wrote => exact setSession_session_of_ne s _ (hother rfl)
  | answered => exact setSession_session_of_ne s _ (hother rfl)
  | refused | lost | unclosed | aborted => rfl

theorem Completion.accepted_le {s s' : Engine} {e : Event} {o : Option Response}
    (hcompletion : Completion s e o s') : s.connections.accepted ≤ s'.connections.accepted := by
  cases hcompletion with
  | accepted => exact Nat.le_succ _
  | decoded | wrote | answered | refused | lost | unclosed | aborted => exact le_rfl

/-- The rooms of an engine that has not stopped are well formed. -/
theorem wellFormed_of_run {tr : List (Event × Option Response)} {s : Engine}
    (h : engine.Run tr s) (hfault : s.fault = none) : s.connections.roomInterface.WellFormed := by
  obtain ⟨_, l, hlobby, hrooms, -⟩ := lobby_of_run h hfault
  exact hrooms ▸ Lobby.wellFormed_of_run hlobby

/-- Whatever bytes the engine has received, the name of a game holds no NUL. -/
theorem plainNames_of_run {tr : List (Event × Option Response)} {s : Engine}
    (h : engine.Run tr s) : PlainNames s.connections.roomInterface := by
  induction h with
  | nil => simp [engine, pool, RoomInterface.new, PlainNames]
  | @snoc tr s s' e o hrun hstep ih =>
    obtain ⟨hfault, hcompletion⟩ := completion_of_step hstep
    have wf := wellFormed_of_run hrun hfault
    cases hcompletion with
    | accepted | decoded | wrote | refused | aborted => exact ih
    | lost | unclosed => exact ih.removeFromRoom wf _
    | @answered c data beyond _ _ _ _ _ _ hprocess =>
      exact ih.outcome wf (fun s hs => Body.zero_notMem_ofBuffer hs)
        (RequestProcesser.outcome_of_process hprocess)

/-- The header of a question is decoded. -/
theorem decodes_question {s s' : Engine} {h : ℕ} {beyond : List UInt8} {heap : ℕ → UInt8}
    {o : Option Response} (hreading : (s.session h).input.reading = .header) (q : Question)
    (hstep : engine.step s (.received h q.request.header.toHeader.bytes beyond heap) =
      some (s', o)) :
    o = none ∧ s'.fault = none ∧
      s'.session h = { s.session h with input := ⟨.body, q.request.header⟩ } := by
  have hdecode : (s.session h).input.onHeader (q.request.header.toHeader.bytes ++ beyond) =
      .ok ⟨.body, q.request.header⟩ := by
    rw [InputConnection.onHeader, HeaderRequest.ofBuffer_bytes q.plain]
    rfl
  obtain ⟨hfault, hcompletion⟩ := completion_of_step hstep
  cases hcompletion with
  | refused _ _ _ hheader => cases hheader.symm.trans hdecode
  | answered _ hbody => cases hbody.symm.trans hreading
  | decoded _ _ _ hheader =>
    obtain rfl := Except.ok.inj (hheader.symm.trans hdecode)
    exact ⟨rfl, hfault, setSession_session_self _ _ _⟩

/-- A question whose body has been read is answered. -/
theorem answers_question {tr : List (Event × Option Response)} {s s' : Engine}
    (hrun : engine.Run tr s) {h : ℕ} {beyond : List UInt8} {heap : ℕ → UInt8}
    {o : Option Response} {q : Question}
    (hinput : (s.session h).input = ⟨.body, q.request.header⟩)
    (hshort : ∀ response, o = some response → response.body.size < 2 ^ 31)
    (hstep : engine.step s (.received h q.request.body.bytes beyond heap) = some (s', o)) :
    (s.session h).input.request (q.request.body.bytes ++ beyond) = q.request ∧ s'.fault = none ∧
      ∃ a : Reply, o = some a.response ∧ s'.session h = ⟨(s.session h).input.read,
        (s.session h).socket.asyncWrite (InputConnection.write heap a.response)⟩ := by
  obtain ⟨hfault, hcompletion⟩ := completion_of_step hstep
  refine ⟨?_, ?_⟩
  · rw [hinput, InputConnection.request, q.bufferSize_eq, Body.length_bytes,
      Body.ofBuffer_bytes _ q.zero_notMem]
  cases hcompletion with
  | decoded _ hbody | refused _ hbody => simp [hinput] at hbody
  | answered _ _ hprocess =>
    obtain ⟨code, body, rfl, hnul⟩ := answer_eq_makeResponse (plainNames_of_run hrun)
      (RequestProcesser.outcome_of_process hprocess)
    exact ⟨hfault, ⟨code, ⟨body, hnul⟩, hshort _ rfl⟩, rfl, setSession_session_self _ _ _⟩

/-- A connection whose read completes stays. -/
theorem Completion.find_of_received {s s' : Engine} {h : ℕ} {data beyond : List UInt8}
    {heap : ℕ → UInt8} {o : Option Response}
    (hcompletion : Completion s (.received h data beyond heap) o s') :
    ∃ c, s'.connections.find h = some c := by
  cases hcompletion with
  | decoded hfind | refused hfind => exact ⟨_, hfind⟩
  | answered hfind =>
    rw [InputConnectionPool.exists_find_iff, InputConnectionPool.names_assign]
    exact InputConnectionPool.exists_find_iff.1 ⟨_, hfind⟩

/-- A partial write of a session. -/
theorem session_of_wrote {s s' : Engine} {h k n : ℕ} {o : Option Response}
    (hstep : engine.step s (.wrote h k n) = some (s', o)) :
    ∃ socket, (s.session h).socket.progress k n = some socket ∧
      s'.session h = { s.session h with socket := socket } := by
  cases (completion_of_step hstep).2 with
  | wrote _ hprogress => exact ⟨_, hprogress, setSession_session_self _ _ _⟩

end Engine

namespace Network

/-- A connection that has not been accepted has no client yet. -/
def Unused (s : Network) : Prop :=
  ∀ h, s.server.connections.accepted ≤ h → s.peer h = Peer.new

/-- Every connection stands at a stage. -/
def Orderly (s : Network) (stage : ℕ → Stage) : Prop :=
  ∀ h, Stands (stage h) (s.server.session h) (s.peer h)

theorem Orderly.stage_eq_idle {s : Network} {stage : ℕ → Stage} (hs : s.Orderly stage) {h : ℕ}
    (hnew : s.peer h = Peer.new) : stage h = .idle :=
  Stage.eq_idle_of_reading (hs h).output (by rw [hnew]; rfl)

/-- A step of one connection takes it to its next stage, and leaves the others. -/
theorem Orderly.of_ne {s s' : Network} {stage : ℕ → Stage} (hs : s.Orderly stage) {h : ℕ}
    {x : Event × Option Report} (hx : x.1.handle = some h) (next : Stage)
    (hnext : Stands next (s'.server.session h) (s'.peer h)) (hmoves : Moves h x (stage h) next)
    (hother : ∀ g, g ≠ h → s'.server.session g = s.server.session g ∧ s'.peer g = s.peer g) :
    ∃ stage', s'.Orderly stage' ∧ ∀ g, Moves g x (stage g) (stage' g) := by
  refine ⟨Function.update stage h next, fun g => ?_, fun g => ?_⟩
  · rcases eq_or_ne g h with rfl | hne
    · rwa [Function.update_self]
    · rw [Function.update_of_ne hne, (hother g hne).1, (hother g hne).2]
      exact hs g
  · rcases eq_or_ne g h with rfl | hne
    · rwa [Function.update_self]
    · rw [Function.update_of_ne hne]
      exact moves_of_ne (fun heq => hne (Option.some.inj (heq.symm.trans hx))) _

/-- The answer of the step, if it gives one, has a body whose length an `int` holds. -/
def Short : Option Report → Prop
  | some (.answered _ response) => response.body.size < 2 ^ 31
  | _ => True

instance : DecidablePred Short
  | none => .isTrue trivial
  | some (.answered _ response) => Nat.decLt response.body.size (2 ^ 31)
  | some (.delivered _) => .isTrue trivial

/-- One step takes every connection from its stage to the next. -/
theorem Orderly.step {s s' : Network} {stage : ℕ → Stage} (hs : s.Orderly stage)
    (hunused : s.Unused) {etr : List (Engine.Event × Option Response)}
    (hrun : engine.Run etr s.server) {e : Event} {o : Option Report} (ht : Transition s e o s')
    (hshort : Short o) :
    ∃ stage', s'.Orderly stage' ∧ ∀ g, Moves g (e, o) (stage g) (stage' g) := by
  cases ht with
  | accepted hstep =>
    refine ⟨stage, fun g => ?_, fun g => moves_of_ne (by simp [Event.handle]) _⟩
    rcases eq_or_ne g s.server.connections.accepted with rfl | hne
    · have hnew := hunused _ le_rfl
      rw [hs.stage_eq_idle hnew]
      dsimp only
      rw [hnew, Engine.onAccept]
      dsimp only
      rw [Engine.setSession_session_self]
      exact stands_new
    · have hsession := (Engine.completion_of_step hstep).2.session_of_ne (h := g)
        (by simp [Engine.Event.handle]) fun _ => hne
      dsimp only
      rw [hsession]
      exact hs g
  | @asked h q heap _ _ hreading =>
    obtain ⟨hidle, hnext⟩ := (hs h).ask hreading q
    refine hs.of_ne rfl (.asked q) (by simpa using hnext) ?_ fun g hne =>
      ⟨rfl, setPeer_peer_of_ne s _ hne⟩
    rw [hidle]
    exact ⟨by simp [Stage.waiting, ask?, exchange?, on],
      by simp [Stage.coming, exchange?, on, deliver?]⟩
  | @sent h _ _ _ hprogress =>
    refine hs.of_ne rfl (stage h) (by simpa using (hs h).sent hprogress) ?_ fun g hne =>
      ⟨rfl, setPeer_peer_of_ne s _ hne⟩
    exact ⟨by simp [ask?, exchange?, on], by simp [exchange?, on, deliver?]⟩
  | @received h data beyond heap requests server' o hread hstep =>
    have hother (g : ℕ) (hne : g ≠ h) : server'.session g = s.server.session g ∧
        (s.setPeer h { s.peer h with requests := requests }).peer g = s.peer g :=
      ⟨(Engine.completion_of_step hstep).2.session_of_ne (fun heq => hne (Option.some.inj heq).symm)
        (fun he => by cases he), setPeer_peer_of_ne s _ hne⟩
    rcases (hs h).read hread with ⟨q, hstage, hreading, rfl, hrest⟩ |
      ⟨q, hstage, hinput, rfl, hrest⟩
    · obtain ⟨rfl, -, hsession⟩ := Engine.decodes_question hreading q hstep
      refine hs.of_ne rfl (.admitted q) ?_ ?_ hother
      · simpa [hsession] using (hs h).decoded hstage hrest
      · rw [hstage]
        exact ⟨by simp [Stage.waiting, ask?, exchange?, on],
          by simp [Stage.coming, exchange?, on, deliver?]⟩
    · obtain ⟨hrequest, -, a, rfl, hsession⟩ := Engine.answers_question hrun hinput
        (fun response ho => by rw [ho] at hshort; exact hshort) hstep
      refine hs.of_ne rfl (.answered a) ?_ ?_ hother
      · simpa [hsession] using (hs h).answered hstage hrest a heap
      · rw [hstage, hrequest]
        exact ⟨by simp [Stage.waiting, ask?, exchange?, on],
          by simp [Stage.coming, exchange?, on, deliver?]⟩
  | @wrote h k n server' hstep =>
    obtain ⟨socket, hprogress, hsession⟩ := Engine.session_of_wrote hstep
    refine hs.of_ne rfl (stage h) (by simpa [hsession] using (hs h).wrote hprogress) ?_
      fun g hne => ⟨(Engine.completion_of_step hstep).2.session_of_ne
        (fun heq => hne (Option.some.inj heq).symm) (fun he => by cases he), rfl⟩
    exact ⟨by simp [ask?, exchange?, on], by simp [exchange?, on, deliver?]⟩
  | @delivered h beyond peer o hreceive =>
    rcases (hs h).receive hreceive with ⟨a, hstage, rfl, hnext⟩ | ⟨a, hstage, rfl, hnext⟩
    · refine hs.of_ne rfl (.announced a) (by simpa using hnext) ?_ fun g hne =>
        ⟨rfl, setPeer_peer_of_ne s _ hne⟩
      rw [hstage]
      exact ⟨by simp [Stage.waiting, ask?, exchange?, on],
        by simp [Stage.coming, exchange?, on, deliver?]⟩
    · refine hs.of_ne rfl .idle (by simpa using hnext) ?_ fun g hne =>
        ⟨rfl, setPeer_peer_of_ne s _ hne⟩
      rw [hstage]
      exact ⟨by simp [Stage.waiting, ask?, exchange?, on],
        by simp [Stage.coming, exchange?, on, deliver?]⟩
  | @failed h _ _ server' hstep =>
    have hsession (g : ℕ) : server'.session g = s.server.session g := by
      cases (Engine.completion_of_step hstep).2 with
      | lost | unclosed => rfl
    refine hs.of_ne rfl (stage h) (by simpa [hsession] using hs h) ?_ fun g _ => ⟨hsession g, rfl⟩
    exact ⟨by simp [ask?, exchange?, on], by simp [exchange?, on, deliver?]⟩
  | @aborted h =>
    refine hs.of_ne rfl (stage h) (hs h) ?_ fun g _ => ⟨rfl, rfl⟩
    exact ⟨by simp [ask?, exchange?, on], by simp [exchange?, on, deliver?]⟩

/-- A step keeps the connections that have not been accepted unused. -/
theorem Unused.step {s s' : Network} {stage : ℕ → Stage} (hunused : s.Unused)
    (hs : s.Orderly stage) {e : Event} {o : Option Report} (ht : Transition s e o s') :
    s'.Unused := by
  have hne {h g : ℕ} (hnew : s.peer h = Peer.new) (hbusy : s.peer g ≠ Peer.new) : h ≠ g :=
    fun heq => hbusy (heq ▸ hnew)
  intro h hle
  cases ht with
  | accepted hstep | wrote hstep | failed hstep | aborted hstep =>
    exact hunused h ((Engine.completion_of_step hstep).2.accepted_le.trans hle)
  | asked hlt =>
    rw [setPeer_peer_of_ne s _ (hlt.trans_le hle).ne', hunused h hle]
  | @sent g k n _ hprogress =>
    have hnew := hunused h hle
    rw [setPeer_peer_of_ne s _ (hne hnew fun hg => ?_), hnew]
    rw [hg] at hprogress
    simp [Peer.new, Channel.new, Channel.progress, Socket.new, Socket.progress] at hprogress
  | @received g _ _ _ _ _ _ hread hstep =>
    have hnew := hunused h ((Engine.completion_of_step hstep).2.accepted_le.trans hle)
    dsimp only
    rw [setPeer_peer_of_ne s _ (hne hnew fun hg => ?_), hnew]
    have hidle := hs.stage_eq_idle hg
    rcases (hs g).read hread with ⟨q, hstage, -⟩ | ⟨q, hstage, -⟩ <;>
      cases hidle.symm.trans hstage
  | @delivered g _ _ _ hreceive =>
    have hnew := hunused h hle
    rw [setPeer_peer_of_ne s _ (hne hnew fun hg => ?_), hnew]
    have hidle := hs.stage_eq_idle hg
    rcases (hs g).receive hreceive with ⟨a, hstage, -⟩ | ⟨a, hstage, -⟩ <;>
      cases hidle.symm.trans hstage

/-! ## Runs -/

/-- The server of the network is the engine, on the bytes its clients wrote. -/
theorem engine_of_run {tr : List (Event × Option Report)} {s : Network} (h : network.Run tr s) :
    ∃ etr, engine.Run etr s.server := by
  induction h with
  | nil => exact ⟨[], .nil⟩
  | snoc _ hstep ih =>
    obtain ⟨etr, hrun⟩ := ih
    cases transition_of_step hstep with
    | accepted hserver | received _ hserver | wrote hserver | failed hserver | aborted hserver =>
      exact ⟨_, hrun.snoc hserver⟩
    | asked | sent | delivered => exact ⟨etr, hrun⟩

@[simp] theorem exchanges_append (tr tr' : List (Event × Option Report)) :
    exchanges (tr ++ tr') = exchanges tr ++ exchanges tr' :=
  List.filterMap_append

@[simp] theorem on_append (h : ℕ) (xs xs' : List (ℕ × Request × Response)) :
    on h (xs ++ xs') = on h xs ++ on h xs' :=
  List.filterMap_append

theorem filterMap_singleton_eq_toList {α β : Type} (f : α → Option β) (x : α) :
    [x].filterMap f = (f x).toList := by
  cases h : f x <;> simp [h]

/-- What has been asked, answered and delivered on a connection at the stage. -/
structure Accounted (h : ℕ) (tr : List (Event × Option Report)) (stage : Stage) : Prop where
  asked : asked h tr = (on h (exchanges tr)).map Prod.fst ++ stage.waiting
  answered : (on h (exchanges tr)).map Prod.snd = delivered h tr ++ stage.coming

theorem Accounted.snoc {h : ℕ} {tr : List (Event × Option Report)} {stage stage' : Stage}
    (hs : Accounted h tr stage) {x : Event × Option Report} (hx : Moves h x stage stage') :
    Accounted h (tr ++ [x]) stage' := by
  have hexchanges : exchanges [x] = (exchange? x).toList := filterMap_singleton_eq_toList _ x
  constructor
  · rw [Network.asked, List.filterMap_append, filterMap_singleton_eq_toList, exchanges_append,
      on_append, List.map_append, hexchanges, List.append_assoc, ← hx.waiting,
      ← List.append_assoc, ← hs.asked]
    rfl
  · have hdelivered : delivered h (tr ++ [x]) = delivered h tr ++ (deliver? h x).toList := by
      rw [Network.delivered, List.filterMap_append, filterMap_singleton_eq_toList]
      rfl
    rw [exchanges_append, on_append, List.map_append, hexchanges, hs.answered, List.append_assoc,
      hx.coming, hdelivered, List.append_assoc]

/-- While the answers are short, every connection stands at a stage that accounts for what
has been asked, answered and delivered on it. -/
theorem orderly_of_run {tr : List (Event × Option Report)} {s : Network} (h : network.Run tr s)
    (hshort : ∀ x ∈ tr, Short x.2) : s.Unused ∧
      ∃ stage, s.Orderly stage ∧ ∀ g, Accounted g tr (stage g) := by
  induction h with
  | nil => exact ⟨fun _ _ => rfl, fun _ => .idle, fun _ => stands_new, fun _ => ⟨rfl, rfl⟩⟩
  | @snoc tr s s' e o hrun hstep ih =>
    obtain ⟨hunused, stage, hs, haccounted⟩ := ih fun x hx => hshort x (List.mem_append_left _ hx)
    obtain ⟨etr, hserver⟩ := engine_of_run hrun
    have ht := transition_of_step hstep
    obtain ⟨stage', hs', hmoves⟩ := hs.step hunused hserver ht (hshort (e, o) (by simp))
    exact ⟨hunused.step hs ht, stage', hs', fun g => (haccounted g).snoc (hmoves g)⟩

/-- What `close` throws is an error of the socket. -/
theorem exists_systemError_of_close {shutdown close : Option String} {e : Exn}
    (h : Engine.close shutdown close = .error e) : ∃ what, e = .systemError what := by
  rcases shutdown with _ | what
  · rcases close with _ | what
    · cases h
    · cases h
      exact ⟨what, rfl⟩
  · cases h
    exact ⟨what, rfl⟩

/-- The event ends `io_service::run` with the fault : a close fails, or a handler runs on a
connection that is gone. -/
def Event.Stops (fault : Fault) : Event → Prop
  | .failed _ shutdown close => ∃ what, Engine.close shutdown close = .error (.systemError what) ∧
      fault = .thrown (.systemError what)
  | .aborted _ _ => fault = .destroyed
  | _ => False

/-- Nothing that is asked stops the server. -/
theorem Orderly.fault {s s' : Network} {stage : ℕ → Stage} (hs : s.Orderly stage) {e : Event}
    {o : Option Report} (ht : Transition s e o s') {fault : Fault}
    (hafter : s'.server.fault = some fault) : s.server.fault = some fault ∨ e.Stops fault := by
  cases ht with
  | asked | sent | delivered => exact Or.inl hafter
  | accepted hstep | wrote hstep =>
    obtain ⟨-, hcompletion⟩ := Engine.completion_of_step hstep
    cases hcompletion
    exact Or.inl hafter
  | failed hstep =>
    obtain ⟨-, hcompletion⟩ := Engine.completion_of_step hstep
    cases hcompletion with
    | lost => exact Or.inl hafter
    | unclosed _ hclose =>
      obtain ⟨what, rfl⟩ := exists_systemError_of_close hclose
      exact Or.inr ⟨what, hclose, (Option.some.inj hafter).symm⟩
  | aborted => exact Or.inr (Option.some.inj hafter).symm
  | received hread hstep =>
    obtain ⟨-, hcompletion⟩ := Engine.completion_of_step hstep
    cases hcompletion with
    | decoded | answered => exact Or.inl hafter
    | @refused c _ _ _ _ _ hreading _ hheader =>
      rcases (hs c.handle).read hread with ⟨q, -, -, rfl, -⟩ | ⟨q, -, hinput, -⟩
      · rw [InputConnection.onHeader, HeaderRequest.ofBuffer_bytes q.plain] at hheader
        cases hheader
      · simp [hinput] at hreading

theorem fault_of_run {tr : List (Event × Option Report)} {s : Network} (h : network.Run tr s)
    (hshort : ∀ x ∈ tr, Short x.2) {fault : Fault} (hfault : s.server.fault = some fault) :
    ∃ x ∈ tr, x.1.Stops fault := by
  induction h with
  | nil => cases hfault
  | snoc hrun hstep ih =>
    have hbefore := fun x hx => hshort x (List.mem_append_left _ hx)
    obtain ⟨-, stage, hs, -⟩ := orderly_of_run hrun hbefore
    rcases hs.fault (transition_of_step hstep) hfault with hfault | hstops
    · obtain ⟨x, hx, hstops⟩ := ih hbefore hfault
      exact ⟨x, List.mem_append_left _ hx, hstops⟩
    · exact ⟨_, List.mem_append_right _ (List.mem_singleton_self _), hstops⟩

/-- The requests the server has answered on a connection are the first that were asked, each
once and in order, the responses delivered are the first of its answers, and one at most is
under way. No client is stopped, and only a close that fails, or a handler that runs on a
connection that is gone, stops the server. -/
theorem exactly_once {tr : List (Event × Option Report)} {s : Network} (h : network.Run tr s)
    (hshort : ∀ x ∈ tr, Short x.2) : (∀ g,
      (on g (exchanges tr)).map Prod.fst <+: asked g tr ∧
      delivered g tr <+: (on g (exchanges tr)).map Prod.snd ∧
      (asked g tr).length ≤ (delivered g tr).length + 1 ∧ (s.peer g).fault = none) ∧
    ∀ fault, s.server.fault = some fault → ∃ x ∈ tr, x.1.Stops fault := by
  obtain ⟨-, stage, hs, haccounted⟩ := orderly_of_run h hshort
  refine ⟨fun g => ⟨?_, ?_, ?_, (hs g).running⟩, fun fault => ?_⟩
  · rw [(haccounted g).asked]
    exact List.prefix_append _ _
  · rw [(haccounted g).answered]
    exact List.prefix_append _ _
  · have hasked := congrArg List.length (haccounted g).asked
    have hanswered := congrArg List.length (haccounted g).answered
    have hone := (stage g).length_waiting_add_coming
    simp only [List.length_append, List.length_map] at hasked hanswered
    omega
  · exact fun hfault => fault_of_run h hshort hfault

/-- Two clients log in and ask at once; the second has its answer, the first has not. -/
theorem exactly_once_two : ∃ tr s, network.Run tr s ∧
    (asked 0 tr).length = 1 ∧ (exchanges tr).length = 2 ∧ (delivered 0 tr).length = 0 ∧
    (delivered 1 tr).map (·.body.content) = [[lit "1"]] ∧
    (on 0 (exchanges tr)).map Prod.fst <+: asked 0 tr := by
  have hrun := Machine.run_of_isSome network
    [.accept, .accept,
      .ask 0 ⟨.clientConnect, ⟨⟨[lit "ada"], by decide +kernel⟩, by decide +kernel⟩⟩ fun _ => 0,
      .ask 1 ⟨.nbrPeopleLoggedIn, ⟨⟨[], by decide +kernel⟩, by decide +kernel⟩⟩ fun _ => 7,
      .sent 1 0 25, .sent 0 0 10, .sent 0 0 19, .received 1 [] fun _ => 0,
      .received 0 [1] fun _ => 0, .received 0 [] fun _ => 0, .received 1 [] fun _ => 0,
      .wrote 1 0 27, .delivered 1 [], .delivered 1 [9]] (by decide +kernel)
  exact ⟨_, _, hrun, by decide +kernel, by decide +kernel, by decide +kernel, by decide +kernel,
    ((exactly_once hrun (by decide +kernel)).1 0).1⟩

end Network

end SpaceBattle
