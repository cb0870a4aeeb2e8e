import SpaceBattle.Lib.Simulation
import SpaceBattle.Asio
import SpaceBattle.Streams

/-!
# The network in segments

In `Network` a read takes its bytes off the wire at once, when all of them are there. In
truth a read of the server, and of a client, is a composed read of asio : it takes what has
arrived, part by part, and its handler runs with the part that fills its buffer.
`SegmentedNetwork` is the network with such reads at both ends of each connection, and an
event of it is the completion of one part.

`handled` puts what has been stored back on the wire, and what the handlers do is what
`Network` does (`network_run_iff`) : every run in segments is a run of the network in the
events that call a handler, and every run of the network is such a run.
-/

namespace SpaceBattle

open Cpp AsyncWrite Asio

/-! ## One read -/

/-- A composed read, and what its buffer holds so far. -/
structure Inbox where
  read : Composed
  stored : List UInt8

namespace Inbox

/-- A read of `size` bytes that has just been started. -/
def new (size : ℕ) : Inbox :=
  ⟨(composed size).init, []⟩

/-- A part is stored behind what the buffer holds. If it is the last, the handler is given
the buffer. -/
def store (b : Inbox) (part : List UInt8) : Option (Inbox × Option (List UInt8)) :=
  (b.read.step ⟨none, part.length⟩).map fun r =>
    (⟨r.1, b.stored ++ part⟩, r.2.map fun _ => b.stored ++ part)

/-- The read goes on, and the buffer holds what it has transferred. -/
def Filling (b : Inbox) (size : ℕ) : Prop :=
  Composed.Filling size b.read b.stored.length

theorem filling_new (size : ℕ) : (new size).Filling size :=
  Composed.filling_init size

variable {b b' : Inbox} {size : ℕ} {part : List UInt8} {o : Option (List UInt8)}

/-- A part leaves the read going on, or fills the buffer. -/
theorem Filling.store (hb : b.Filling size) (h : b.store part = some (b', o)) :
    b'.stored = b.stored ++ part ∧ ((o = none ∧ 0 < part.length ∧ b'.Filling size) ∨
      (o = some (b.stored ++ part) ∧ (b.stored ++ part).length = size)) := by
  obtain ⟨⟨read, call⟩, hstep, heq⟩ := Option.map_eq_some_iff.1 h
  obtain ⟨rfl, rfl⟩ := Prod.mk.inj heq
  refine ⟨rfl, ?_⟩
  rcases Composed.Filling.step hb hstep with ⟨rfl, hpos, hread⟩ | ⟨⟨call, rfl⟩, hfull⟩
  · rw [← List.length_append] at hread
    exact Or.inl ⟨rfl, hpos, hread⟩
  · exact Or.inr ⟨rfl, by rw [List.length_append, hfull]⟩

/-- A read that goes on can be given some part. -/
theorem Filling.exists_store (hb : b.Filling size) : ∃ n, b.stored.length + n ≤ size ∧
    ∀ part : List UInt8, part.length = n → ∃ r, b.store part = some r := by
  obtain ⟨n, read, o, hle, hstep⟩ := Composed.Filling.exists_step hb
  refine ⟨n, hle, fun part hpart => ?_⟩
  subst hpart
  exact ⟨_, by rw [Inbox.store, hstep]; rfl⟩

/-- No more is stored than the read waits for. -/
theorem Filling.length_le (hb : b.Filling size) : b.stored.length ≤ size := by
  obtain ⟨n, hle, -⟩ := hb.exists_store
  omega

end Inbox

/-! ## The client's handlers -/

namespace Peer

/-- The handler of the client's read, `mem` the memory from its buffer on. -/
def onRead (p : Peer) (mem : List UInt8) : Peer × Option Response :=
  match p.output.reading with
  | none => (p, none)
  | some .header =>
    match p.output.onHeader mem with
    | .error e => ({ p with fault := some e }, none)
    | .ok output => ({ p with output := output }, none)
  | some .body => ({ p with output := p.output.finish }, some (p.output.response mem))

/-- The handler leaves what the client writes. -/
theorem requests_onRead (p : Peer) (mem : List UInt8) : (p.onRead mem).1.requests = p.requests := by
  unfold onRead
  rcases p.output.reading with _ | _ | _
  · rfl
  · cases p.output.onHeader mem <;> rfl
  · rfl

/-- A read at once is a read and its handler. -/
theorem receive_eq_some_iff {p : Peer} {socket : Socket UInt8} {beyond : List UInt8}
    {r : Peer × Option Response} : p.receive socket beyond = some r ↔
      p.fault = none ∧ p.output.reading ≠ none ∧ ∃ data answers,
        Channel.read ⟨socket, p.taken⟩ p.output.wanted = some (data, answers) ∧
          ({ p with taken := answers.taken } : Peer).onRead (data ++ beyond) = r := by
  unfold receive onRead
  cases hfault : p.fault with
  | some e => simp
  | none =>
    cases hread : Channel.read ⟨socket, p.taken⟩ p.output.wanted with
    | none => rcases p.output.reading with _ | _ | _ <;> simp
    | some t =>
      obtain ⟨data, answers⟩ := t
      rcases hreading : p.output.reading with _ | _ | _
      · simp
      · cases hheader : p.output.onHeader (data ++ beyond) <;> simp [hreading, hheader]
      · simp [hreading]

/-- The client before its last reads : `i` bytes of its own are still to be read by the
server, and it has `j` of the server's still to read. -/
def behind (p : Peer) (i j : ℕ) : Peer :=
  { p with requests := p.requests.putBack i, taken := p.taken - j }

theorem ask_behind (p : Peer) (q : Question) (heap : ℕ → UInt8) (i j : ℕ) :
    (p.behind i j).ask q heap = (p.ask q heap).map fun p' => p'.behind i j := by
  unfold ask
  rw [apply_ite (Option.map _)]
  rfl

theorem send_behind (p : Peer) (k n i j : ℕ) :
    (p.behind i j).send k n = (p.send k n).map fun p' => p'.behind i j := by
  have hprogress : (p.requests.putBack i).progress k n =
      (p.requests.progress k n).map fun requests => requests.putBack i := by
    simp [Channel.progress, Channel.putBack, Function.comp_def]
  unfold send
  rw [apply_ite (Option.map _), Option.map_map, behind, hprogress, Option.map_map]
  rfl

theorem onRead_behind (p : Peer) (mem : List UInt8) (i j : ℕ) :
    (p.behind i j).onRead mem = ((p.onRead mem).1.behind i j, (p.onRead mem).2) := by
  unfold onRead
  rcases hreading : p.output.reading with _ | _ | _
  · simp [behind, hreading]
  · cases hheader : p.output.onHeader mem <;> simp [behind, hreading, hheader]
  · simp [behind, hreading]

end Peer

/-! ## The network -/

/-- The network, and the reads outstanding at both ends of each connection, by handle. -/
structure SegmentedNetwork where
  /-- Its channels count what has been stored as taken. -/
  network : Network
  /-- The server's reads. -/
  inbox : ℕ → Inbox
  /-- The clients' reads. -/
  reply : ℕ → Inbox

namespace SegmentedNetwork

/-- What can happen : as in the network, but a read is given one part of `n` bytes. -/
inductive Event
  | accept
  | ask (handle : ℕ) (question : Question) (heap : ℕ → UInt8)
  | sent (handle k n : ℕ)
  | received (handle n : ℕ) (beyond : List UInt8) (heap : ℕ → UInt8)
  | wrote (handle k n : ℕ)
  | delivered (handle n : ℕ) (beyond : List UInt8)
  | failed (handle : ℕ) (shutdown close : Option String)
  | aborted (handle : ℕ) (operation : Operation)

/-- The event of the network, if a handler runs. -/
def Event.network : Event → Network.Event
  | accept => .accept
  | ask handle question heap => .ask handle question heap
  | sent handle k n => .sent handle k n
  | received handle _ beyond heap => .received handle beyond heap
  | wrote handle k n => .wrote handle k n
  | delivered handle _ beyond => .delivered handle beyond
  | failed handle shutdown close => .failed handle shutdown close
  | aborted handle operation => .aborted handle operation

/-- The network with another client and other reads of a connection. -/
def set (s : SegmentedNetwork) (handle : ℕ) (peer : Peer) (inbox reply : Inbox) :
    SegmentedNetwork :=
  ⟨s.network.setPeer handle peer, Function.update s.inbox handle inbox,
    Function.update s.reply handle reply⟩

/-- The network with another server. -/
def withServer (s : SegmentedNetwork) (server : Engine) : SegmentedNetwork :=
  { s with network := { s.network with server := server } }

/-- An event of the engine alone. -/
def drive (s : SegmentedNetwork) (e : Engine.Event) :
    Option (SegmentedNetwork × Option (Option Network.Report)) :=
  (Engine.step s.network.server e).map fun r => (s.withServer r.1, some none)

/-- A part of `n` bytes for the server's read, whose handler starts the next read. -/
def onReceived (s : SegmentedNetwork) (handle n : ℕ) (beyond : List UInt8) (heap : ℕ → UInt8) :
    Option (SegmentedNetwork × Option (Option Network.Report)) :=
  let server := s.network.server
  let peer := s.network.peer handle
  if server.fault.isSome || (server.connections.find handle).isNone then none
  else
    match peer.requests.read n with
    | none => none
    | some (part, requests) =>
      match (s.inbox handle).store part with
      | none => none
      | some (inbox, none) =>
        some (s.set handle { peer with requests := requests } inbox (s.reply handle), none)
      | some (_, some data) =>
        (Engine.step server (.received handle data beyond heap)).map fun r =>
          ((s.set handle { peer with requests := requests }
              (Inbox.new (r.1.session handle).input.wanted) (s.reply handle)).withServer r.1,
            some (r.2.map fun response =>
              .answered ((server.session handle).input.request (data ++ beyond)) response))

/-- A part of `n` bytes for the client's read. -/
def onDelivered (s : SegmentedNetwork) (handle n : ℕ) (beyond : List UInt8) :
    Option (SegmentedNetwork × Option (Option Network.Report)) :=
  let peer := s.network.peer handle
  if peer.fault.isSome || peer.output.reading.isNone then none
  else
    match Channel.read ⟨(s.network.server.session handle).socket, peer.taken⟩ n with
    | none => none
    | some (part, answers) =>
      let peer := { peer with taken := answers.taken }
      match (s.reply handle).store part with
      | none => none
      | some (reply, none) => some (s.set handle peer (s.inbox handle) reply, none)
      | some (_, some data) =>
        let r := peer.onRead (data ++ beyond)
        some (s.set handle r.1 (s.inbox handle) (Inbox.new r.1.output.wanted),
          some (r.2.map .delivered))

/-- One event, and what it brings about if a handler runs. -/
def step (s : SegmentedNetwork) :
    Event → Option (SegmentedNetwork × Option (Option Network.Report))
  | .accept => s.drive .accept
  | .ask handle question heap =>
    if s.network.server.connections.accepted ≤ handle then none
    else ((s.network.peer handle).ask question heap).map fun peer =>
      (s.set handle peer (s.inbox handle) (Inbox.new peer.output.wanted), some none)
  | .sent handle k n =>
    ((s.network.peer handle).send k n).map fun peer =>
      (s.set handle peer (s.inbox handle) (s.reply handle), some none)
  | .received handle n beyond heap => s.onReceived handle n beyond heap
  | .wrote handle k n => s.drive (.wrote handle k n)
  | .delivered handle n beyond => s.onDelivered handle n beyond
  | .failed handle shutdown close => s.drive (.failed handle shutdown close)
  | .aborted handle operation => s.drive (.aborted handle operation)

end SegmentedNetwork

open SegmentedNetwork

/-- The network in segments, from no connections. -/
def segmentedNetwork :
    Machine SegmentedNetwork SegmentedNetwork.Event (Option (Option Network.Report)) :=
  ⟨⟨network.init, fun _ => Inbox.new 25, fun _ => Inbox.new 0⟩, SegmentedNetwork.step⟩

namespace SegmentedNetwork

/-! ## What is seen -/

/-- The network, with what has been stored and not handed to a handler back on the wires. -/
def handled (s : SegmentedNetwork) : Network :=
  ⟨s.network.server, fun h =>
    (s.network.peer h).behind (s.inbox h).stored.length (s.reply h).stored.length⟩

/-- The event of the network, if a handler has run. -/
def seen (x : Event × Option (Option Network.Report)) :
    Option (Network.Event × Option Network.Report) :=
  x.2.map fun o => (x.1.network, o)

theorem handled_set (s : SegmentedNetwork) (h : ℕ) (p : Peer) (b c : Inbox) :
    (s.set h p b c).handled = s.handled.setPeer h (p.behind b.stored.length c.stored.length) := by
  refine congrArg (Network.mk _) (funext fun g => ?_)
  rcases eq_or_ne g h with rfl | hne
  · simp [set, Network.setPeer]
  · simp [set, Network.setPeer, Function.update_of_ne hne, handled]

theorem handled_withServer (s : SegmentedNetwork) (server : Engine) :
    (s.withServer server).handled = { s.handled with server := server } :=
  rfl

/-- What a part for the server's read does. -/
theorem onReceived_cases {s s' : SegmentedNetwork} {h n : ℕ} {beyond : List UInt8}
    {heap : ℕ → UInt8} {o : Option (Option Network.Report)}
    (hstep : s.onReceived h n beyond heap = some (s', o)) :
    ∃ part requests inbox, (s.network.peer h).requests.read n = some (part, requests) ∧
      (((s.inbox h).store part = some (inbox, none) ∧ o = none ∧
        s' = s.set h { s.network.peer h with requests := requests } inbox (s.reply h)) ∨
      ∃ data server response, (s.inbox h).store part = some (inbox, some data) ∧
        engine.step s.network.server (.received h data beyond heap) = some (server, response) ∧
        o = some (response.map (.answered
          ((s.network.server.session h).input.request (data ++ beyond)))) ∧
        s' = (s.set h { s.network.peer h with requests := requests }
          (Inbox.new (server.session h).input.wanted) (s.reply h)).withServer server) := by
  unfold onReceived at hstep
  dsimp only at hstep
  split at hstep
  · cases hstep
  cases hread : (s.network.peer h).requests.read n with
  | none => simp [hread] at hstep
  | some t =>
    obtain ⟨part, requests⟩ := t
    refine ⟨part, requests, ?_⟩
    cases hstore : (s.inbox h).store part with
    | none => simp [hread, hstore] at hstep
    | some r =>
      obtain ⟨inbox, _ | data⟩ := r
      · simp only [hread, hstore, Option.some.injEq, Prod.mk.injEq] at hstep
        exact ⟨inbox, rfl, Or.inl ⟨rfl, hstep.2.symm, hstep.1.symm⟩⟩
      · simp only [hread, hstore] at hstep
        obtain ⟨⟨server, response⟩, hserver, heq⟩ := Option.map_eq_some_iff.1 hstep
        obtain ⟨rfl, rfl⟩ := Prod.mk.inj heq
        exact ⟨inbox, rfl, Or.inr ⟨data, server, response, rfl, hserver, rfl, rfl⟩⟩

/-- What a part for a client's read does. -/
theorem onDelivered_cases {s s' : SegmentedNetwork} {h n : ℕ} {beyond : List UInt8}
    {o : Option (Option Network.Report)} (hstep : s.onDelivered h n beyond = some (s', o)) :
    (s.network.peer h).fault = none ∧ (s.network.peer h).output.reading ≠ none ∧
    ∃ part answers reply,
      Channel.read ⟨(s.network.server.session h).socket, (s.network.peer h).taken⟩ n =
        some (part, answers) ∧
      (((s.reply h).store part = some (reply, none) ∧ o = none ∧
        s' = s.set h { s.network.peer h with taken := answers.taken } (s.inbox h) reply) ∨
      ∃ data p response, (s.reply h).store part = some (reply, some data) ∧
        ({ s.network.peer h with taken := answers.taken } : Peer).onRead (data ++ beyond) =
          (p, response) ∧
        o = some (response.map .delivered) ∧
        s' = s.set h p (s.inbox h) (Inbox.new p.output.wanted)) := by
  unfold onDelivered at hstep
  dsimp only at hstep
  split at hstep
  · cases hstep
  rename_i hready
  simp only [Bool.or_eq_true, Option.isSome_iff_ne_none, Option.isNone_iff_eq_none, not_or,
    not_not] at hready
  refine ⟨hready.1, hready.2, ?_⟩
  cases hread : Channel.read ⟨(s.network.server.session h).socket,
    (s.network.peer h).taken⟩ n with
  | none => simp [hread] at hstep
  | some t =>
    obtain ⟨part, answers⟩ := t
    refine ⟨part, answers, ?_⟩
    cases hstore : (s.reply h).store part with
    | none => simp [hread, hstore] at hstep
    | some r =>
      obtain ⟨reply, _ | data⟩ := r
      · simp only [hread, hstore, Option.some.injEq, Prod.mk.injEq] at hstep
        exact ⟨reply, rfl, Or.inl ⟨rfl, hstep.2.symm, hstep.1.symm⟩⟩
      · simp only [hread, hstore, Option.some.injEq, Prod.mk.injEq] at hstep
        exact ⟨reply, rfl, Or.inr ⟨data, _, _, rfl, rfl, hstep.2.symm, hstep.1.symm⟩⟩

/-! ## Invariants -/

/-- The reads outstanding at both ends of a connection go on, and their buffers hold what was
read last. -/
structure Buffered (session : Session) (p : Peer) (inbox reply : Inbox) : Prop where
  filling : inbox.Filling session.input.wanted
  received : p.requests.Received inbox.stored
  replyFilling : reply.Filling p.output.wanted
  delivered : Channel.Received ⟨session.socket, p.taken⟩ reply.stored

/-- Every connection is buffered, and those that have not been accepted are new. -/
structure Sound (s : SegmentedNetwork) : Prop where
  unused : ∀ h, s.network.server.connections.accepted ≤ h →
    s.network.server.session h = Session.new
  buffered : ∀ h, Buffered (s.network.server.session h) (s.network.peer h) (s.inbox h) (s.reply h)

/-- The server has written more, and its read is the same. -/
theorem Buffered.of_session {session session' : Session} {p : Peer} {inbox reply : Inbox}
    (h : Buffered session p inbox reply) (hinput : session'.input = session.input)
    (hwire : session.socket.wire <+: session'.socket.wire) : Buffered session' p inbox reply :=
  ⟨hinput ▸ h.filling, h.received, h.replyFilling, h.delivered.of_prefix rfl hwire⟩

theorem sound_init : segmentedNetwork.init.Sound where
  unused _ _ := rfl
  buffered _ := ⟨Inbox.filling_new 25, Channel.received_nil _, Inbox.filling_new 0,
    Channel.received_nil _⟩

/-- Another client and other reads of a connection. -/
theorem Sound.set {s : SegmentedNetwork} (hs : s.Sound) {h : ℕ} {p : Peer} {inbox reply : Inbox}
    (hnew : Buffered (s.network.server.session h) p inbox reply) :
    (s.set h p inbox reply).Sound := by
  refine ⟨hs.unused, fun g => ?_⟩
  rcases eq_or_ne g h with rfl | hne
  · simpa [SegmentedNetwork.set, Network.setPeer] using hnew
  · simpa [SegmentedNetwork.set, Network.setPeer, Function.update_of_ne hne] using hs.buffered g

end SegmentedNetwork

namespace Engine

/-- The wires grow. -/
theorem Completion.wire_prefix {s s' : Engine} {e : Event} {o : Option Response}
    (hcompletion : Completion s e o s')
    (hunused : ∀ h, s.connections.accepted ≤ h → s.session h = Session.new) (h : ℕ) :
    (s.session h).socket.wire <+: (s'.session h).socket.wire := by
  have hset (g : ℕ) (session : Session) {s' : Engine}
      (hwire : (s.session g).socket.wire <+: session.socket.wire)
      (hs' : s'.session = (s.setSession g session).session) :
      (s.session h).socket.wire <+: (s'.session h).socket.wire := by
    rw [hs']
    rcases eq_or_ne h g with rfl | hne
    · rwa [setSession_session_self]
    · rw [setSession_session_of_ne s session hne]
  cases hcompletion with
  | accepted =>
    refine hset _ _ ?_ rfl
    rw [hunused _ le_rfl]
  | decoded | answered =>
    refine hset _ _ ?_ rfl
    exact List.prefix_refl _
  | refused | lost | unclosed | aborted => exact List.prefix_refl _
  | wrote _ hprogress => exact hset _ _ (Channel.wire_prefix_of_progress hprogress) rfl

end Engine

namespace SegmentedNetwork

/-- A step is quiet, or an event of the network. -/
def Refines (s s' : SegmentedNetwork) (e : Event) (o : Option (Option Network.Report)) : Prop :=
  s'.Sound ∧ (seen (e, o) = none → s'.handled = s.handled) ∧
    ∀ x, seen (e, o) = some x → Network.step s.handled x.1 = some (s'.handled, x.2)

theorem refines_none {s s' : SegmentedNetwork} {e : Event} (hs : s'.Sound)
    (hhandled : s'.handled = s.handled) : Refines s s' e none :=
  ⟨hs, fun _ => hhandled, fun x hx => by cases hx⟩

theorem refines_some {s s' : SegmentedNetwork} {e : Event} {o : Option Network.Report}
    (hs : s'.Sound) (hstep : Network.step s.handled e.network = some (s'.handled, o)) :
    Refines s s' e (some o) := by
  refine ⟨hs, fun hx => (by cases hx), fun x hx => ?_⟩
  obtain rfl := Option.some.inj hx
  exact hstep

section

variable {s s' : SegmentedNetwork} {o : Option (Option Network.Report)} (hs : s.Sound)

include hs

/-- An event of the engine alone that completes no read. -/
theorem Sound.drive (e' : Event) {e : Engine.Event}
    (hhandles : s.network.server.fault = none → s.network.server.connections.Handles)
    (hquiet : ∀ h o, Engine.read? h (e, o) = none) (he : ∀ n, Network.step n e'.network = n.drive e)
    (h : s.drive e = some (s', o)) : Refines s s' e' o := by
  obtain ⟨⟨server, o'⟩, hstep, heq⟩ := Option.map_eq_some_iff.1 h
  obtain ⟨rfl, rfl⟩ := Prod.mk.inj heq
  obtain ⟨hfault, hcompletion⟩ := Engine.completion_of_step hstep
  refine refines_some ⟨fun g hle => hcompletion.unused (hhandles hfault) hs.unused hle, fun g =>
    (hs.buffered g).of_session (hcompletion.input_eq hs.unused (hquiet g _))
      (hcompletion.wire_prefix hs.unused g)⟩ ?_
  rw [he, Network.drive]
  exact congrArg (Option.map _) hstep

theorem Sound.ask {h : ℕ} {q : Question} {heap : ℕ → UInt8}
    (hstep : segmentedNetwork.step s (.ask h q heap) = some (s', o)) :
    Refines s s' (.ask h q heap) o := by
  obtain ⟨hlt, p, hask, heq⟩ : s.network.server.connections.accepted > h ∧
      ∃ p, (s.network.peer h).ask q heap = some p ∧
        (s.set h p (s.inbox h) (Inbox.new p.output.wanted), some none) = (s', o) := by
    simpa [segmentedNetwork, SegmentedNetwork.step] using hstep
  obtain ⟨rfl, rfl⟩ := Prod.mk.inj heq
  obtain ⟨-, hreading, hp⟩ := Peer.ask_eq_some_iff.1 hask
  have hbuffered := hs.buffered h
  have hstored : (s.reply h).stored = [] := by
    have hle := hbuffered.replyFilling.length_le
    rw [OutputConnection.wanted, hreading] at hle
    exact List.eq_nil_of_length_eq_zero (Nat.le_zero.1 hle)
  refine refines_some (hs.set ⟨hbuffered.filling, ?_, Inbox.filling_new _,
    Channel.received_nil _⟩) ?_
  · rw [← hp]
    exact hbuffered.received.of_prefix rfl (List.prefix_refl _)
  · rw [handled_set, Event.network, Network.step]
    have hcoarse : (s.handled.peer h).ask q heap =
        some (p.behind (s.inbox h).stored.length (s.reply h).stored.length) := by
      rw [handled, Peer.ask_behind, hask]
      rfl
    rw [if_neg (by exact hlt.not_ge), hcoarse, hstored]
    rfl

theorem Sound.sent {h k n : ℕ} (hstep : segmentedNetwork.step s (.sent h k n) = some (s', o)) :
    Refines s s' (.sent h k n) o := by
  obtain ⟨p, hsend, heq⟩ := Option.map_eq_some_iff.1 hstep
  obtain ⟨rfl, rfl⟩ := Prod.mk.inj heq
  obtain ⟨-, requests, hprogress, rfl⟩ := Peer.send_eq_some_iff.1 hsend
  obtain ⟨socket, hsocket, rfl⟩ := Option.map_eq_some_iff.1 hprogress
  have hbuffered := hs.buffered h
  refine refines_some (hs.set ⟨hbuffered.filling, ?_, hbuffered.replyFilling,
    hbuffered.delivered⟩) ?_
  · exact hbuffered.received.of_prefix rfl (Channel.wire_prefix_of_progress hsocket)
  · rw [handled_set, Event.network, Network.step, handled, Peer.send_behind, hsend]
    rfl

theorem Sound.received {h n : ℕ} {beyond : List UInt8} {heap : ℕ → UInt8}
    (hhandles : s.network.server.fault = none → s.network.server.connections.Handles)
    (hstep : s.onReceived h n beyond heap = some (s', o)) :
    Refines s s' (.received h n beyond heap) o := by
  have hbuffered := hs.buffered h
  obtain ⟨part, requests, inbox, hread, hcases⟩ := onReceived_cases hstep
  have hpart := Channel.length_of_read hread
  obtain ⟨hreceived, hback, hwhole⟩ := hbuffered.received.read hread
  rcases hcases with ⟨hstore, rfl, rfl⟩ | ⟨data, server, response, hstore, hserver, rfl, rfl⟩
  · obtain ⟨hstored, ⟨-, -, hfilling⟩ | ⟨hsome, -⟩⟩ := hbuffered.filling.store hstore
    · refine refines_none (hs.set ⟨hfilling, hstored ▸ hreceived, hbuffered.replyFilling,
        hbuffered.delivered⟩) ?_
      rw [handled_set, hstored, Peer.behind]
      dsimp only
      rw [hback]
      exact congrArg (Network.mk _) (Function.update_eq_self h s.handled.peer)
    · cases hsome
  · obtain ⟨hstored, ⟨hnone, -⟩ | ⟨hsome, hfull⟩⟩ := hbuffered.filling.store hstore
    · cases hnone
    obtain rfl := Option.some.inj hsome
    obtain ⟨hfault, hcompletion⟩ := Engine.completion_of_step hserver
    refine refines_some ⟨fun g hle => hcompletion.unused (hhandles hfault) hs.unused hle,
      fun g => ?_⟩ ?_
    · rcases eq_or_ne g h with rfl | hne
      · simp only [withServer, SegmentedNetwork.set, Network.setPeer, Function.update_self]
        exact ⟨Inbox.filling_new _, Channel.received_nil _, hbuffered.replyFilling,
          hbuffered.delivered.of_prefix rfl (hcompletion.wire_prefix hs.unused g)⟩
      · have hsession := hcompletion.session_of_ne (h := g)
          (fun heq => hne (Option.some.inj heq).symm) fun he => by cases he
        simp only [withServer, SegmentedNetwork.set, Network.setPeer, Function.update_of_ne hne]
        rw [hsession]
        exact hs.buffered g
    · have hlength : (s.network.server.session h).input.wanted =
          (s.inbox h).stored.length + n := by rw [← hfull, List.length_append, hpart]
      have hcoarse : (s.handled.peer h).requests.read (s.handled.server.session h).input.wanted =
          some ((s.inbox h).stored ++ part, requests) := by
        rw [← hwhole, ← hlength]
        rfl
      rw [handled_withServer, handled_set, Event.network, Network.step]
      dsimp only
      rw [hcoarse]
      dsimp only
      have hengine : Engine.step s.handled.server (.received h ((s.inbox h).stored ++ part) beyond
          heap) = some (server, response) := hserver
      rw [hengine]
      rfl

theorem Sound.delivered {h n : ℕ} {beyond : List UInt8}
    (hstep : s.onDelivered h n beyond = some (s', o)) :
    Refines s s' (.delivered h n beyond) o := by
  have hbuffered := hs.buffered h
  obtain ⟨hfault, hreading, part, answers, reply, hread, hcases⟩ := onDelivered_cases hstep
  have hpart := Channel.length_of_read hread
  obtain ⟨hreceived, hback, hwhole⟩ := hbuffered.delivered.read hread
  obtain ⟨socket, taken⟩ := answers
  obtain rfl : socket = (s.network.server.session h).socket := Channel.socket_of_read hread
  dsimp only at hcases
  rcases hcases with ⟨hstore, rfl, rfl⟩ | ⟨data, p, response, hstore, hhandler, rfl, rfl⟩
  · obtain ⟨hstored, ⟨-, -, hfilling⟩ | ⟨hsome, -⟩⟩ := hbuffered.replyFilling.store hstore
    · refine refines_none (hs.set ⟨hbuffered.filling, hbuffered.received, hfilling,
        hstored ▸ hreceived⟩) ?_
      have htaken : taken - ((s.reply h).stored ++ part).length =
          (s.network.peer h).taken - (s.reply h).stored.length := congrArg Channel.taken hback
      rw [handled_set, hstored, Peer.behind]
      dsimp only
      rw [htaken]
      exact congrArg (Network.mk _) (Function.update_eq_self h s.handled.peer)
    · cases hsome
  · obtain ⟨hstored, ⟨hnone, -⟩ | ⟨hsome, hfull⟩⟩ := hbuffered.replyFilling.store hstore
    · cases hnone
    obtain rfl := Option.some.inj hsome
    have hrequests := Peer.requests_onRead
      { s.network.peer h with taken := taken } ((s.reply h).stored ++ part ++ beyond)
    rw [hhandler] at hrequests
    refine refines_some (hs.set ⟨hbuffered.filling, ?_, Inbox.filling_new _,
      Channel.received_nil _⟩) ?_
    · rw [hrequests]
      exact hbuffered.received
    · have hreceive : (s.handled.peer h).receive (s.handled.server.session h).socket beyond =
          some (p.behind (s.inbox h).stored.length 0, response) := by
        refine Peer.receive_eq_some_iff.2 ⟨hfault, hreading, (s.reply h).stored ++ part,
          ⟨(s.network.server.session h).socket, taken⟩, ?_, ?_⟩
        · rw [List.length_append, hpart] at hfull
          rw [hfull] at hwhole
          exact hwhole
        · have hbehind := Peer.onRead_behind { s.network.peer h with taken := taken }
            ((s.reply h).stored ++ part ++ beyond) (s.inbox h).stored.length 0
          rw [hhandler] at hbehind
          exact hbehind
      rw [handled_set, Event.network, Network.step, hreceive]
      rfl

end

/-- The network in segments refines the network. -/
theorem refinement :
    Machine.Refinement segmentedNetwork SpaceBattle.network Sound handled seen where
  init := sound_init
  map_init := rfl
  step := by
    intro tr s e s' o hrun hs hstep
    have hhandles (hfault : s.network.server.fault = none) :
        s.network.server.connections.Handles := by
      obtain ⟨etr, hengine⟩ := Network.engine_of_run hrun
      exact Engine.handles_of_run hengine hfault
    cases e with
    | accept => exact hs.drive .accept hhandles (fun _ _ => rfl) (fun _ => rfl) hstep
    | ask => exact hs.ask hstep
    | sent => exact hs.sent hstep
    | received => exact hs.received hhandles hstep
    | wrote h k n => exact hs.drive (.wrote h k n) hhandles (fun _ _ => rfl) (fun _ => rfl) hstep
    | delivered => exact hs.delivered hstep
    | failed h shutdown close =>
      exact hs.drive (.failed h shutdown close) hhandles (fun _ _ => rfl) (fun _ => rfl) hstep
    | aborted h operation =>
      exact hs.drive (.aborted h operation) hhandles (fun _ _ => rfl) (fun _ => rfl) hstep

/-! ## Every run of the network -/

/-- Nothing is stored that has not been handed to a handler. -/
def Clear (s : SegmentedNetwork) : Prop :=
  ∀ h, (s.inbox h).stored = [] ∧ (s.reply h).stored = []

/-- Nothing is stored but by the reads of one connection. -/
def ClearBut (h : ℕ) (s : SegmentedNetwork) : Prop :=
  ∀ g, g ≠ h → (s.inbox g).stored = [] ∧ (s.reply g).stored = []

theorem ClearBut.set {s : SegmentedNetwork} {h : ℕ} (hs : ClearBut h s) (p : Peer)
    (inbox reply : Inbox) : ClearBut h (s.set h p inbox reply) := by
  intro g hne
  simpa [SegmentedNetwork.set, Function.update_of_ne hne] using hs g hne

theorem ClearBut.clear {s : SegmentedNetwork} {h : ℕ} (hs : ClearBut h s) (p : Peer)
    {inbox reply : Inbox} (hinbox : inbox.stored = []) (hreply : reply.stored = []) :
    (s.set h p inbox reply).Clear := by
  intro g
  rcases eq_or_ne g h with rfl | hne
  · simpa [SegmentedNetwork.set] using ⟨hinbox, hreply⟩
  · simpa [SegmentedNetwork.set, Function.update_of_ne hne] using hs g hne

/-- A read of the server that the network can do can be given a part. -/
theorem Sound.exists_received {s : SegmentedNetwork} (hs : s.Sound) {h : ℕ} {beyond : List UInt8}
    {heap : ℕ → UInt8} {t : Network} {o : Option Network.Report}
    (hstep : SpaceBattle.network.step s.handled (.received h beyond heap) = some (t, o)) :
    ∃ n s' o, s.onReceived h n beyond heap = some (s', o) := by
  cases Network.transition_of_step hstep with
  | @received _ data _ _ requests server response hread hserver =>
    obtain ⟨hfault, hcompletion⟩ := Engine.completion_of_step hserver
    obtain ⟨c, hfind⟩ := hcompletion.exists_find
    have hbuffered := hs.buffered h
    obtain ⟨n, hle, hstore⟩ := hbuffered.filling.exists_store
    obtain ⟨part, requests', hpart⟩ := hbuffered.received.exists_read hread hle
    have hlength := Channel.length_of_read hpart
    obtain ⟨⟨inbox, call⟩, hstored⟩ := hstore part hlength
    have hrunning : s.network.server.fault = none := hfault
    have hlive : s.network.server.connections.find h = some c := hfind
    refine ⟨n, ?_⟩
    obtain ⟨-, ⟨rfl, -, -⟩ | ⟨rfl, hfull⟩⟩ := hbuffered.filling.store hstored
    · simp [onReceived, hrunning, hlive, hpart, hstored]
    · -- the last part : what is stored is what the network reads at once
      obtain ⟨-, -, hwhole⟩ := hbuffered.received.read hpart
      rw [← hlength, ← List.length_append, hfull] at hwhole
      obtain ⟨rfl, -⟩ := Prod.mk.inj (Option.some.inj (hwhole.symm.trans hread))
      have hengine : Engine.step s.network.server (.received h ((s.inbox h).stored ++ part) beyond
          heap) = some (server, response) := hserver
      simp [onReceived, hrunning, hlive, hpart, hstored, hengine]

/-- A read of a client that the network can do can be given a part. -/
theorem Sound.exists_delivered {s : SegmentedNetwork} (hs : s.Sound) {h : ℕ} {beyond : List UInt8}
    {t : Network} {o : Option Network.Report}
    (hstep : SpaceBattle.network.step s.handled (.delivered h beyond) = some (t, o)) :
    ∃ n s' o, s.onDelivered h n beyond = some (s', o) := by
  cases Network.transition_of_step hstep with
  | delivered hreceive =>
    obtain ⟨hfault, hreading, data, answers, hread, -⟩ := Peer.receive_eq_some_iff.1 hreceive
    have hbuffered := hs.buffered h
    obtain ⟨n, hle, hstore⟩ := hbuffered.replyFilling.exists_store
    obtain ⟨part, answers', hpart⟩ := hbuffered.delivered.exists_read hread hle
    obtain ⟨⟨reply, call⟩, hstored⟩ := hstore part (Channel.length_of_read hpart)
    have hrunning : (s.network.peer h).fault = none := hfault
    have hwaiting : (s.network.peer h).output.reading ≠ none := hreading
    refine ⟨n, ?_⟩
    rcases call with _ | data
    · simp [onDelivered, hrunning, Option.isNone_iff_eq_none, hwaiting, hpart, hstored]
    · simp [onDelivered, hrunning, Option.isNone_iff_eq_none, hwaiting, hpart, hstored]

section

variable {n t : Network} {h : ℕ} {beyond : List UInt8} {o : Option Network.Report}

/-- A read of the server can be done part by part. -/
theorem exists_exec_received {heap : ℕ → UInt8}
    (hhandles : n.server.fault = none → n.server.connections.Handles)
    (hn : SpaceBattle.network.step n (.received h beyond heap) = some (t, o))
    (s : SegmentedNetwork) (hs : s.Sound) (hhandled : s.handled = n) (hclear : ClearBut h s)
    (hreply : (s.reply h).stored = []) : ∃ es s' tr, segmentedNetwork.exec s es = some (s', tr) ∧
      tr.filterMap seen = [(.received h beyond heap, o)] ∧ s'.handled = t ∧ s'.Clear := by
  refine Machine.exists_exec_seen (P := fun s => s.Sound ∧ s.handled = n ∧ ClearBut h s ∧
      (s.reply h).stored = [])
    (fun s => (s.network.server.session h).input.wanted - (s.inbox h).stored.length) ?_ s
    ⟨hs, hhandled, hclear, hreply⟩
  rintro s ⟨hs, rfl, hclear, hreply⟩
  obtain ⟨m, s', o', hstep⟩ := hs.exists_received hn
  obtain ⟨hs', hquiet, hloud⟩ := hs.received hhandles hstep
  refine ⟨.received h m beyond heap, s', o', hstep, ?_⟩
  obtain ⟨part, requests, inbox, -, ⟨hstore, rfl, rfl⟩ | ⟨data, server, response, -, -, rfl,
    rfl⟩⟩ := onReceived_cases hstep
  · obtain ⟨hstored, ⟨-, hpos, hfilling⟩ | ⟨hsome, -⟩⟩ := (hs.buffered h).filling.store hstore
    · refine Or.inl ⟨rfl, ⟨hs', hquiet rfl, hclear.set _ _ _, by simpa [set] using hreply⟩, ?_⟩
      have hle := hfilling.length_le
      rw [hstored, List.length_append] at hle
      simp only [set, Network.setPeer, Function.update_self]
      rw [hstored, List.length_append]
      omega
    · cases hsome
  · obtain ⟨ht, ho⟩ := Prod.mk.inj (Option.some.inj (hn.symm.trans (hloud _ rfl)))
    refine Or.inr ⟨by rw [ho]; rfl, ht.symm, ?_⟩
    exact hclear.clear { s.network.peer h with requests := requests } rfl hreply

/-- A read of a client can be done part by part. -/
theorem exists_exec_delivered
    (hn : SpaceBattle.network.step n (.delivered h beyond) = some (t, o)) (s : SegmentedNetwork)
    (hs : s.Sound) (hhandled : s.handled = n) (hclear : ClearBut h s)
    (hinbox : (s.inbox h).stored = []) : ∃ es s' tr, segmentedNetwork.exec s es = some (s', tr) ∧
      tr.filterMap seen = [(.delivered h beyond, o)] ∧ s'.handled = t ∧ s'.Clear := by
  refine Machine.exists_exec_seen (P := fun s => s.Sound ∧ s.handled = n ∧ ClearBut h s ∧
      (s.inbox h).stored = [])
    (fun s => (s.network.peer h).output.wanted - (s.reply h).stored.length) ?_ s
    ⟨hs, hhandled, hclear, hinbox⟩
  rintro s ⟨hs, rfl, hclear, hinbox⟩
  obtain ⟨m, s', o', hstep⟩ := hs.exists_delivered hn
  obtain ⟨hs', hquiet, hloud⟩ := hs.delivered hstep
  refine ⟨.delivered h m beyond, s', o', hstep, ?_⟩
  obtain ⟨-, -, part, answers, reply, -, ⟨hstore, rfl, rfl⟩ | ⟨data, p, response, -, -, rfl,
    rfl⟩⟩ := onDelivered_cases hstep
  · obtain ⟨hstored, ⟨-, hpos, hfilling⟩ | ⟨hsome, -⟩⟩ := (hs.buffered h).replyFilling.store hstore
    · refine Or.inl ⟨rfl, ⟨hs', hquiet rfl, hclear.set _ _ _, by simpa [set] using hinbox⟩, ?_⟩
      have hle := hfilling.length_le
      rw [hstored, List.length_append] at hle
      simp only [set, Network.setPeer, Function.update_self]
      rw [hstored, List.length_append]
      omega
    · cases hsome
  · obtain ⟨ht, ho⟩ := Prod.mk.inj (Option.some.inj (hn.symm.trans (hloud _ rfl)))
    exact Or.inr ⟨by rw [ho]; rfl, ht.symm, hclear.clear p hinbox rfl⟩

end

/-- With nothing stored, the network is the one whose wires count what was taken. -/
theorem Clear.handled_eq {s : SegmentedNetwork} (hs : s.Clear) : s.handled = s.network := by
  refine congrArg (Network.mk _) (funext fun h => ?_)
  rw [(hs h).1, (hs h).2]
  rfl

/-- An event of the engine alone that the network can do. -/
theorem exists_drive {s : SegmentedNetwork} {e : Engine.Event} {r : Network × Option Network.Report}
    (h : s.handled.drive e = some r) :
    ∃ server, s.drive e = some (s.withServer server, some none) := by
  obtain ⟨⟨server, o⟩, hstep, -⟩ := Option.map_eq_some_iff.1 h
  exact ⟨server, congrArg (Option.map _) hstep⟩

/-- An event that a handler runs at once. -/
theorem exists_exec_of_step (e : Event) {s s' : SegmentedNetwork} {t : Network}
    {o o' : Option Network.Report} (hstep : segmentedNetwork.step s e = some (s', some o'))
    (hrefines : Refines s s' e (some o')) (hclear : s'.Clear)
    (hn : SpaceBattle.network.step s.handled e.network = some (t, o)) :
    ∃ es s' tr, segmentedNetwork.exec s es = some (s', tr) ∧
      tr.filterMap seen = [(e.network, o)] ∧ s'.handled = t ∧ s'.Clear := by
  obtain ⟨ht, ho⟩ := Prod.mk.inj (Option.some.inj (hn.symm.trans (hrefines.2.2 _ rfl)))
  exact ⟨[e], s', [(e, some o')], by simp [Machine.exec, hstep], by rw [ho]; rfl, ht.symm, hclear⟩

/-- Every event of the network can be brought about. -/
theorem exists_exec {ntr : List (Network.Event × Option Network.Report)} {s : SegmentedNetwork}
    {e : Network.Event} {t : Network} {o : Option Network.Report}
    (hrun : SpaceBattle.network.Run ntr s.handled) (hs : s.Sound) (hclear : s.Clear)
    (hstep : SpaceBattle.network.step s.handled e = some (t, o)) :
    ∃ es s' tr, segmentedNetwork.exec s es = some (s', tr) ∧
      tr.filterMap seen = [(e, o)] ∧ s'.handled = t ∧ s'.Clear := by
  have hhandles (hfault : s.handled.server.fault = none) :
      s.handled.server.connections.Handles := by
    obtain ⟨etr, hengine⟩ := Network.engine_of_run hrun
    exact Engine.handles_of_run hengine hfault
  cases e with
  | received h beyond heap =>
    exact exists_exec_received hhandles hstep s hs rfl (fun g _ => hclear g) (hclear h).2
  | delivered h beyond =>
    exact exists_exec_delivered hstep s hs rfl (fun g _ => hclear g) (hclear h).1
  | accept =>
    obtain ⟨server, hdrive⟩ := exists_drive hstep
    exact exists_exec_of_step .accept hdrive
      (hs.drive .accept hhandles (fun _ _ => rfl) (fun _ => rfl) hdrive) hclear hstep
  | wrote h k n =>
    obtain ⟨server, hdrive⟩ := exists_drive hstep
    exact exists_exec_of_step (.wrote h k n) hdrive
      (hs.drive (.wrote h k n) hhandles (fun _ _ => rfl) (fun _ => rfl) hdrive) hclear hstep
  | failed h shutdown close =>
    obtain ⟨server, hdrive⟩ := exists_drive hstep
    exact exists_exec_of_step (.failed h shutdown close) hdrive
      (hs.drive (.failed h shutdown close) hhandles (fun _ _ => rfl) (fun _ => rfl) hdrive) hclear
      hstep
  | aborted h operation =>
    obtain ⟨server, hdrive⟩ := exists_drive hstep
    exact exists_exec_of_step (.aborted h operation) hdrive
      (hs.drive (.aborted h operation) hhandles (fun _ _ => rfl) (fun _ => rfl) hdrive) hclear hstep
  | ask h q heap =>
    have hn := hstep
    rw [hclear.handled_eq] at hn
    obtain ⟨hlt, p, hask, -⟩ : s.network.server.connections.accepted > h ∧
        ∃ p, (s.network.peer h).ask q heap = some p ∧ (s.network.setPeer h p, none) = (t, o) := by
      simpa [SpaceBattle.network, Network.step] using hn
    have hfine : segmentedNetwork.step s (.ask h q heap) =
        some (s.set h p (s.inbox h) (Inbox.new p.output.wanted), some none) := by
      simp [segmentedNetwork, SegmentedNetwork.step, hlt, hask]
    exact exists_exec_of_step _ hfine (hs.ask hfine)
      (ClearBut.clear (fun g _ => hclear g) p (hclear h).1 rfl) hstep
  | sent h k n =>
    have hn := hstep
    rw [hclear.handled_eq] at hn
    obtain ⟨p, hsend, -⟩ := Option.map_eq_some_iff.1 hn
    have hfine : segmentedNetwork.step s (.sent h k n) =
        some (s.set h p (s.inbox h) (s.reply h), some none) := by
      simp [segmentedNetwork, SegmentedNetwork.step, hsend]
    exact exists_exec_of_step _ hfine (hs.sent hfine)
      (ClearBut.clear (fun g _ => hclear g) p (hclear h).1 (hclear h).2) hstep

/-- What the handlers of the network in segments do, in all its runs, is what the network
does. -/
theorem network_run_iff {tr : List (Network.Event × Option Network.Report)} {n : Network} :
    SpaceBattle.network.Run tr n ↔ ∃ str s, segmentedNetwork.Run str s ∧
      str.filterMap seen = tr ∧ s.handled = n := by
  refine ⟨fun h => ?_, ?_⟩
  · obtain ⟨str, s, hrun, hseen, hhandled, -⟩ := refinement.exists_run (J := Clear)
      (fun _ => ⟨rfl, rfl⟩) exists_exec h
    exact ⟨str, s, hrun, hseen, hhandled⟩
  · rintro ⟨str, s, hrun, rfl, rfl⟩
    exact (refinement.run hrun).2

end SegmentedNetwork

end SpaceBattle
