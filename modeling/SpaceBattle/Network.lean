import SpaceBattle.Client
import SpaceBattle.Engine

/-!
# The network

The engine and its clients, one `Peer` for each connection accepted, as one machine. A
client asks, a part of what it wrote leaves, the server's outstanding read completes with
bytes off the client's wire, a part of what the server wrote leaves, the client's
outstanding read completes with bytes off the server's wire, the connection fails, or the
handler of what was outstanding on a connection that is gone runs. Every order of these is a
run.

A read completes with the next bytes of the wire, in order, as soon as there are as many as
it waits for. The memory behind the buffers, the heap and the errors of a close are part of
the events.
-/

namespace SpaceBattle

open Cpp AsyncWrite

/-- The engine, and the client at the other end of each connection, by handle. -/
structure Network where
  server : Engine
  peer : ℕ → Peer

namespace Network

/-- What can happen in the network. -/
inductive Event
  | accept
  | ask (handle : ℕ) (question : Question) (heap : ℕ → UInt8)
  | sent (handle k n : ℕ)
  | received (handle : ℕ) (beyond : List UInt8) (heap : ℕ → UInt8)
  | wrote (handle k n : ℕ)
  | delivered (handle : ℕ) (beyond : List UInt8)
  | failed (handle : ℕ) (shutdown close : Option String)
  | aborted (handle : ℕ) (operation : Operation)

/-- The connection an event belongs to. -/
def Event.handle : Event → Option ℕ
  | accept => none
  | ask handle _ _ => some handle
  | sent handle _ _ => some handle
  | received handle _ _ => some handle
  | wrote handle _ _ => some handle
  | delivered handle _ => some handle
  | failed handle _ _ => some handle
  | aborted handle _ => some handle

/-- What an event brings about : the server has answered a request, or a response has been
handed to the client's callback. -/
inductive Report
  | answered (request : Request) (response : Response)
  | delivered (response : Response)
  deriving DecidableEq

/-- The network with another client of a connection. -/
def setPeer (s : Network) (handle : ℕ) (peer : Peer) : Network :=
  { s with peer := Function.update s.peer handle peer }

@[simp] theorem setPeer_server (s : Network) (handle : ℕ) (peer : Peer) :
    (s.setPeer handle peer).server = s.server :=
  rfl

@[simp] theorem setPeer_peer_self (s : Network) (handle : ℕ) (peer : Peer) :
    (s.setPeer handle peer).peer handle = peer :=
  Function.update_self _ _ _

theorem setPeer_peer_of_ne (s : Network) (peer : Peer) {h h' : ℕ} (hne : h' ≠ h) :
    (s.setPeer h peer).peer h' = s.peer h' :=
  Function.update_of_ne hne _ _

/-- An event of the engine alone. -/
def drive (s : Network) (e : Engine.Event) : Option (Network × Option Report) :=
  (Engine.step s.server e).map fun r => ({ s with server := r.1 }, none)

/-- One event, and what it brings about. -/
def step (s : Network) : Event → Option (Network × Option Report)
  | .accept => s.drive .accept
  | .ask handle question heap =>
    if s.server.connections.accepted ≤ handle then none
    else ((s.peer handle).ask question heap).map fun peer => (s.setPeer handle peer, none)
  | .sent handle k n =>
    ((s.peer handle).send k n).map fun peer => (s.setPeer handle peer, none)
  | .received handle beyond heap =>
    let input := (s.server.session handle).input
    match (s.peer handle).requests.read input.wanted with
    | none => none
    | some (data, requests) =>
      (Engine.step s.server (.received handle data beyond heap)).map fun r =>
        ({ s.setPeer handle { s.peer handle with requests := requests } with server := r.1 },
          r.2.map fun response => .answered (input.request (data ++ beyond)) response)
  | .wrote handle k n => s.drive (.wrote handle k n)
  | .delivered handle beyond =>
    ((s.peer handle).receive (s.server.session handle).socket beyond).map fun r =>
      (s.setPeer handle r.1, r.2.map .delivered)
  | .failed handle shutdown close => s.drive (.failed handle shutdown close)
  | .aborted handle operation => s.drive (.aborted handle operation)

end Network

open Network

/-- The network, from no connections. -/
def network : Machine Network Network.Event (Option Network.Report) :=
  ⟨⟨engine.init, fun _ => Peer.new⟩, Network.step⟩

namespace Network

/-! ## Steps -/

/-- What an event does. -/
inductive Transition (s : Network) : Event → Option Report → Network → Prop
  | accepted (hstep : engine.step s.server .accept = some (s.server.onAccept, none)) :
      Transition s .accept none { s with server := s.server.onAccept }
  | asked {h : ℕ} {q : Question} {heap : ℕ → UInt8} (hlt : h < s.server.connections.accepted)
      (hfault : (s.peer h).fault = none) (hreading : (s.peer h).output.reading = none) :
      Transition s (.ask h q heap) none (s.setPeer h { s.peer h with
        requests := (s.peer h).requests.write q.request.bytes, output := (s.peer h).output.read })
  | sent {h k n : ℕ} {requests : Channel UInt8}
      (hprogress : (s.peer h).requests.progress k n = some requests) :
      Transition s (.sent h k n) none (s.setPeer h { s.peer h with requests := requests })
  | received {h : ℕ} {data beyond : List UInt8} {heap : ℕ → UInt8} {requests : Channel UInt8}
      {server' : Engine} {o : Option Response}
      (hread : (s.peer h).requests.read (s.server.session h).input.wanted = some (data, requests))
      (hstep : engine.step s.server (.received h data beyond heap) = some (server', o)) :
      Transition s (.received h beyond heap)
        (o.map (.answered ((s.server.session h).input.request (data ++ beyond))))
        { s.setPeer h { s.peer h with requests := requests } with server := server' }
  | wrote {h k n : ℕ} {server' : Engine}
      (hstep : engine.step s.server (.wrote h k n) = some (server', none)) :
      Transition s (.wrote h k n) none { s with server := server' }
  | delivered {h : ℕ} {beyond : List UInt8} {peer : Peer} {o : Option Response}
      (hreceive : (s.peer h).receive (s.server.session h).socket beyond = some (peer, o)) :
      Transition s (.delivered h beyond) (o.map .delivered) (s.setPeer h peer)
  | failed {h : ℕ} {shutdown close : Option String} {server' : Engine}
      (hstep : engine.step s.server (.failed h shutdown close) = some (server', none)) :
      Transition s (.failed h shutdown close) none { s with server := server' }
  | aborted {h : ℕ} {operation : Operation}
      (hstep : engine.step s.server (.aborted h operation) = some (s.server.onAborted, none)) :
      Transition s (.aborted h operation) none { s with server := s.server.onAborted }

/-- Only a body that has been read is answered. -/
theorem eq_none_of_not_received {s s' : Engine} {e : Engine.Event} {o : Option Response}
    (hstep : engine.step s e = some (s', o))
    (he : ∀ handle data beyond heap, e ≠ .received handle data beyond heap) : o = none := by
  cases (Engine.completion_of_step hstep).2 with
  | answered => exact absurd rfl (he _ _ _ _)
  | accepted | decoded | refused | lost | unclosed | wrote | aborted => rfl

theorem drive_eq_some {s s' : Network} {e : Engine.Event} {o : Option Report}
    (h : s.drive e = some (s', o))
    (he : ∀ handle data beyond heap, e ≠ .received handle data beyond heap) : o = none ∧
      ∃ server', engine.step s.server e = some (server', none) ∧
        s' = { s with server := server' } := by
  obtain ⟨⟨server', o'⟩, hstep, heq⟩ := Option.map_eq_some_iff.1 h
  obtain ⟨rfl, rfl⟩ := Prod.mk.inj heq
  obtain rfl := eq_none_of_not_received hstep he
  exact ⟨rfl, server', hstep, rfl⟩

theorem transition_of_step {s s' : Network} {e : Event} {o : Option Report}
    (hstep : network.step s e = some (s', o)) : Transition s e o s' := by
  cases e with
  | accept =>
    obtain ⟨rfl, server', h, rfl⟩ := drive_eq_some (s := s) hstep (by simp)
    cases (Engine.completion_of_step h).2 with
    | accepted => exact .accepted h
  | ask h q heap =>
    obtain ⟨hlt, peer, hask, hs⟩ : h < s.server.connections.accepted ∧
        ∃ peer, (s.peer h).ask q heap = some peer ∧ (s.setPeer h peer, none) = (s', o) := by
      simpa [network, step] using hstep
    obtain ⟨hfault, hreading, rfl⟩ := Peer.ask_eq_some_iff.1 hask
    obtain ⟨rfl, rfl⟩ := Prod.mk.inj hs
    exact .asked hlt hfault hreading
  | sent h k n =>
    obtain ⟨peer, hsend, hs⟩ := Option.map_eq_some_iff.1 hstep
    obtain ⟨-, requests, hprogress, rfl⟩ := Peer.send_eq_some_iff.1 hsend
    obtain ⟨rfl, rfl⟩ := Prod.mk.inj hs
    exact .sent hprogress
  | received h beyond heap =>
    cases hread : (s.peer h).requests.read (s.server.session h).input.wanted with
    | none => simp [network, step, hread] at hstep
    | some r =>
      obtain ⟨data, requests⟩ := r
      simp only [network, step, hread] at hstep
      obtain ⟨⟨server', o'⟩, h', hs⟩ := Option.map_eq_some_iff.1 hstep
      obtain ⟨rfl, rfl⟩ := Prod.mk.inj hs
      exact .received hread h'
  | wrote h k n =>
    obtain ⟨rfl, server', h', rfl⟩ := drive_eq_some (s := s) hstep (by simp)
    exact .wrote h'
  | delivered h beyond =>
    obtain ⟨⟨peer, o'⟩, hreceive, hs⟩ := Option.map_eq_some_iff.1 hstep
    obtain ⟨rfl, rfl⟩ := Prod.mk.inj hs
    exact .delivered hreceive
  | failed h shutdown close =>
    obtain ⟨rfl, server', h', rfl⟩ := drive_eq_some (s := s) hstep (by simp)
    exact .failed h'
  | aborted h operation =>
    obtain ⟨rfl, server', h', rfl⟩ := drive_eq_some (s := s) hstep (by simp)
    cases (Engine.completion_of_step h').2 with
    | aborted => exact .aborted h'

end Network

end SpaceBattle
