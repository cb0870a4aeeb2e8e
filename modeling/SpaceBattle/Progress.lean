import SpaceBattle.Exchange
import SpaceBattle.Pipelining
import SpaceBattle.Service

/-!
# Progress

No exchange of the network is ever stuck. `completes` : from every state that a run of the
network reaches with the server running, the client of a live connection has its response
after at most six more events of that connection alone, whatever is under way on it and on
the others, and may ask again. The six are those of a request that has just been asked : it
leaves, its header and its body are read, the answer leaves, its header and its body are
read.

`Within` counts events of a connection. Each lemma takes the connection one stage on, from a
stage whose bytes are on the wire, or puts them on the wire.
-/

namespace SpaceBattle

open Cpp AsyncWrite

namespace Network

/-! ## Events of one connection -/

/-- The events belong to the connection, and ask nothing. -/
def Own (h : ℕ) (ws : List (Event × Option Report)) : Prop :=
  ∀ x ∈ ws, x.1.handle = some h ∧ ask? h x = none

/-- After at most `n` events of the connection, `P` holds of the run and its state. -/
def Within (h n : ℕ) (tr : List (Event × Option Report))
    (P : List (Event × Option Report) → Network → Prop) : Prop :=
  ∃ ws s', ws.length ≤ n ∧ Own h ws ∧ P (tr ++ ws) s'

section

variable {h n m : ℕ} {tr : List (Event × Option Report)}
  {P Q : List (Event × Option Report) → Network → Prop}

theorem Within.now {s : Network} (hp : P tr s) : Within h n tr P :=
  ⟨[], s, Nat.zero_le n, by simp [Own], by simpa using hp⟩

theorem Within.next {s' : Network} {x : Event × Option Report} (hx : x.1.handle = some h)
    (hask : ask? h x = none) (hp : P (tr ++ [x]) s') : Within h 1 tr P :=
  ⟨[x], s', le_rfl, by simp [Own, hx, hask], hp⟩

theorem Within.trans (hp : Within h n tr P)
    (hq : ∀ tr' s', P tr' s' → Within h m tr' Q) : Within h (n + m) tr Q := by
  obtain ⟨ws, s₁, hn, hown, hp⟩ := hp
  obtain ⟨ws', s', hm, hown', hq⟩ := hq _ _ hp
  refine ⟨ws ++ ws', s', ?_, fun x hx => ?_, by rwa [← List.append_assoc]⟩
  · rw [List.length_append]
    omega
  · rcases List.mem_append.1 hx with hx | hx
    · exact hown x hx
    · exact hown' x hx

end

/-- The server runs, and the connection is live and at the stage. -/
structure Live (h : ℕ) (stage : Stage) (tr : List (Event × Option Report)) (s : Network) :
    Prop where
  run : network.Run tr s
  running : s.server.fault = none
  found : ∃ c, s.server.connections.find h = some c
  stands : Stands stage (s.server.session h) (s.peer h)

/-- A run with short answers has got as far as `P`. -/
def IfShort (P : List (Event × Option Report) → Network → Prop)
    (tr : List (Event × Option Report)) (s : Network) : Prop :=
  network.Run tr s ∧ ((∀ x ∈ tr, Short x.2) → P tr s)

theorem Within.ifShort {h n m : ℕ} {tr : List (Event × Option Report)}
    {P Q : List (Event × Option Report) → Network → Prop} (hp : Within h n tr (IfShort P))
    (hq : ∀ tr' s', P tr' s' → Within h m tr' (IfShort Q)) : Within h (n + m) tr (IfShort Q) := by
  refine hp.trans fun tr' s' ⟨hrun, hp⟩ => ?_
  by_cases hshort : ∀ x ∈ tr', Short x.2
  · exact hq tr' s' (hp hshort)
  · exact Within.now ⟨hrun, fun h => absurd h hshort⟩

/-! ## Onto the wire -/

section

variable {h : ℕ} {stage : Stage} {tr : List (Event × Option Report)} {s : Network}

/-- What the client has written leaves. -/
theorem Live.flush_requests (hs : Live h stage tr s) : Within h 1 tr fun tr' s' =>
    Live h stage tr' s' ∧ (s'.peer h).requests.socket.outstanding = [] := by
  by_cases hnone : (s.peer h).requests.socket.outstanding = []
  · exact Within.now ⟨hs, hnone⟩
  · obtain ⟨n, requests, hprogress, hflushed⟩ := hs.stands.requests.exists_flush hnone
    have hsend := Peer.send_eq_some_iff.2 ⟨hs.stands.running, requests, hprogress, rfl⟩
    have hstep : network.step s (.sent h 0 n) =
        some (s.setPeer h { s.peer h with requests := requests }, none) := by
      simp [network, step, hsend]
    refine Within.next rfl rfl ⟨⟨hs.run.snoc hstep, hs.running, hs.found, ?_⟩, ?_⟩
    · simpa using hs.stands.sent hprogress
    · simpa using hflushed

/-- What the server has written leaves. -/
theorem Live.flush_answers (hs : Live h stage tr s) : Within h 1 tr fun tr' s' =>
    Live h stage tr' s' ∧ (s'.server.session h).socket.outstanding = [] := by
  by_cases hnone : (s.server.session h).socket.outstanding = []
  · exact Within.now ⟨hs, hnone⟩
  · obtain ⟨n, answers, hprogress, hflushed⟩ := hs.stands.answers.exists_flush hnone
    obtain ⟨socket, hsocket, rfl⟩ := Option.map_eq_some_iff.1 hprogress
    have hserver := Engine.step_wrote hs.running hs.found hsocket
    have hstep : network.step s (.wrote h 0 n) =
        some (⟨s.server.setSession h { s.server.session h with socket := socket }, s.peer⟩,
          none) := by
      simp only [network, step, drive]
      rw [show Engine.step s.server (.wrote h 0 n) = _ from hserver]
      rfl
    refine Within.next rfl rfl ⟨⟨hs.run.snoc hstep, hs.running, hs.found, ?_⟩, ?_⟩
    · simpa using hs.stands.wrote hsocket
    · simpa using hflushed

/-! ## Reads -/

/-- The server's read completes. -/
theorem Live.received (hs : Live h stage tr s) {data : List UInt8} {requests : Channel UInt8}
    (hread : (s.peer h).requests.read (s.server.session h).input.wanted = some (data, requests)) :
    ∃ server' o, engine.step s.server (.received h data [] fun _ => 0) = some (server', o) ∧
      network.step s (.received h [] fun _ => 0) =
        some ({ s.setPeer h { s.peer h with requests := requests } with server := server' },
          o.map (.answered ((s.server.session h).input.request (data ++ [])))) := by
  obtain ⟨c, hfind⟩ := hs.found
  obtain ⟨hmem, rfl⟩ := InputConnectionPool.find_spec hfind
  obtain ⟨server', o, hserver, -⟩ := Engine.serves_of_mem hs.running hmem data [] (fun _ => 0)
    (Channel.length_of_read hread)
  refine ⟨server', o, hserver, ?_⟩
  have hserver' : Engine.step s.server (.received c.handle data [] fun _ => 0) =
      some (server', o) := hserver
  simp only [network, step, hread, hserver']
  rfl

/-- The server reads the header of what was asked. -/
theorem Live.take_header {q : Question} (hs : Live h (.asked q) tr s)
    (hflushed : (s.peer h).requests.socket.outstanding = []) : Within h 1 tr fun tr' s' =>
      Live h (.admitted q) tr' s' ∧ (s'.peer h).requests.socket.outstanding = [] := by
  have hwanted : (s.server.session h).input.wanted = 25 := by
    rw [InputConnection.wanted, show (s.server.session h).input.reading = .header from
      hs.stands.input]
  have hlength : 25 ≤ q.request.bytes.length := by
    rw [Request.bytes, List.length_append, q.plain.length_bytes]
    omega
  obtain ⟨data, requests, hread⟩ := hs.stands.requests.exists_read hflushed hlength
  rw [← hwanted] at hread
  obtain ⟨server', o, hserver, hstep⟩ := hs.received hread
  rcases hs.stands.read hread with ⟨q', hq, hreading, rfl, hrest⟩ | ⟨q', hq, -⟩
  · cases hq
    obtain ⟨rfl, hfault, hsession⟩ := Engine.decodes_question hreading q hserver
    have hfound := (Engine.completion_of_step hserver).2.find_of_received
    refine Within.next rfl rfl ⟨⟨hs.run.snoc hstep, hfault, hfound, ?_⟩, ?_⟩
    · simpa [hsession] using hs.stands.decoded rfl hrest
    · simpa [Channel.socket_of_read hread] using hflushed
  · cases hq

/-- The server reads the body of what was asked, and answers. -/
theorem Live.answer {q : Question} (hs : Live h (.admitted q) tr s)
    (hflushed : (s.peer h).requests.socket.outstanding = []) :
    Within h 1 tr (IfShort fun tr' s' => ∃ a, Live h (.answered a) tr' s') := by
  have hinput : (s.server.session h).input = ⟨.body, q.request.header⟩ := hs.stands.input
  have hwanted : (s.server.session h).input.wanted = q.request.body.bytes.length := by
    rw [hinput]
    exact q.bufferSize_eq
  obtain ⟨data, requests, hread⟩ := hs.stands.requests.exists_read hflushed hwanted.le
  obtain ⟨server', o, hserver, hstep⟩ := hs.received hread
  refine Within.next rfl rfl ⟨hs.run.snoc hstep, fun hshort => ?_⟩
  have hlast := hshort _ (List.mem_append_right tr (List.mem_singleton_self _))
  rcases hs.stands.read hread with ⟨q', hq, -⟩ | ⟨q', hq, -, rfl, hrest⟩
  · cases hq
  · cases hq
    obtain ⟨etr, hrun⟩ := engine_of_run hs.run
    obtain ⟨-, hfault, a, rfl, hsession⟩ := Engine.answers_question hrun hinput
      (fun response ho => by rw [ho] at hlast; exact hlast) hserver
    have hfound := (Engine.completion_of_step hserver).2.find_of_received
    refine ⟨a, hs.run.snoc hstep, hfault, hfound, ?_⟩
    simpa [hsession] using hs.stands.answered rfl hrest a fun _ => 0

/-- The client's read completes. -/
theorem Live.deliver (hs : Live h stage tr s) {r : Reading}
    (hreading : (s.peer h).output.reading = some r)
    (hflushed : (s.server.session h).socket.outstanding = [])
    (hlength : (s.peer h).output.wanted ≤ stage.answerBytes.length) : ∃ peer o,
      (s.peer h).receive (s.server.session h).socket [] = some (peer, o) ∧
      network.step s (.delivered h []) = some (s.setPeer h peer, o.map .delivered) := by
  obtain ⟨data, answers, hread⟩ := hs.stands.answers.exists_read hflushed hlength
  have hsome : ((s.peer h).receive (s.server.session h).socket []).isSome := by
    unfold Peer.receive
    rw [hread, hreading, hs.stands.running]
    cases r with
    | header =>
      cases hheader : (s.peer h).output.onHeader (data ++ []) with
      | error e =>
        simp only [hheader]
        rfl
      | ok output =>
        simp only [hheader]
        rfl
    | body => rfl
  obtain ⟨⟨peer, o⟩, hreceive⟩ := Option.isSome_iff_exists.1 hsome
  refine ⟨peer, o, hreceive, ?_⟩
  simp [network, step, hreceive]

/-- The client reads the header of the answer. -/
theorem Live.announce {a : Reply} (hs : Live h (.answered a) tr s)
    (hflushed : (s.server.session h).socket.outstanding = []) : Within h 1 tr fun tr' s' =>
      Live h (.announced a) tr' s' ∧ (s'.server.session h).socket.outstanding = [] := by
  have hreading : (s.peer h).output.reading = some .header := hs.stands.output
  have hlength : (s.peer h).output.wanted ≤ (Stage.answered a).answerBytes.length := by
    rw [OutputConnection.wanted, hreading, Stage.answerBytes, Response.bytes, List.length_append,
      a.plain.length_bytes]
    exact Nat.le_add_right _ _
  obtain ⟨peer, o, hreceive, hstep⟩ := hs.deliver hreading hflushed hlength
  rcases hs.stands.receive hreceive with ⟨a', ha, rfl, hnext⟩ | ⟨a', ha, -⟩
  · cases ha
    refine Within.next rfl rfl ⟨⟨hs.run.snoc hstep, hs.running, hs.found, ?_⟩, hflushed⟩
    simpa using hnext
  · cases ha

/-- The client reads the body of the answer. -/
theorem Live.finish {a : Reply} (hs : Live h (.announced a) tr s)
    (hflushed : (s.server.session h).socket.outstanding = []) :
    Within h 1 tr fun tr' s' => Live h .idle tr' s' := by
  have houtput : (s.peer h).output = ⟨some .body, a.response.header⟩ := hs.stands.output
  have hlength : (s.peer h).output.wanted ≤ (Stage.announced a).answerBytes.length := by
    rw [houtput]
    exact a.bufferSize_eq.le
  obtain ⟨peer, o, hreceive, hstep⟩ := hs.deliver (by rw [houtput]) hflushed hlength
  rcases hs.stands.receive hreceive with ⟨a', ha, -⟩ | ⟨a', ha, rfl, hnext⟩
  · cases ha
  · refine Within.next rfl rfl ⟨hs.run.snoc hstep, hs.running, hs.found, ?_⟩
    simpa using hnext

/-! ## Whole exchanges -/

/-- An answer that is on its way is delivered. -/
theorem Live.finish_answered {a : Reply} (hs : Live h (.answered a) tr s) :
    Within h 3 tr fun tr' s' => Live h .idle tr' s' := by
  refine hs.flush_answers.trans (m := 2) fun tr₁ s₁ ⟨hs₁, hflushed₁⟩ => ?_
  exact (hs₁.announce hflushed₁).trans fun tr₂ s₂ ⟨hs₂, hflushed₂⟩ => hs₂.finish hflushed₂

/-- A request whose header has been read is answered, and the answer delivered. -/
theorem Live.finish_admitted {q : Question} (hs : Live h (.admitted q) tr s)
    (hflushed : (s.peer h).requests.socket.outstanding = []) :
    Within h 4 tr (IfShort (Live h .idle)) := by
  refine (hs.answer hflushed).ifShort (m := 3) fun tr₁ s₁ ⟨a, hs₁⟩ => ?_
  exact hs₁.finish_answered.trans (m := 0) fun tr₂ s₂ hs₂ =>
    Within.now ⟨hs₂.run, fun _ => hs₂⟩

/-- Whatever is under way is completed. -/
theorem Live.complete (hs : Live h stage tr s) : Within h 6 tr (IfShort (Live h .idle)) := by
  have hdone {n : ℕ} (tr' : List (Event × Option Report)) (s' : Network)
      (hs' : Live h .idle tr' s') : Within h n tr' (IfShort (Live h .idle)) :=
    Within.now ⟨hs'.run, fun _ => hs'⟩
  cases stage with
  | idle => exact hdone tr s hs
  | asked q =>
    refine hs.flush_requests.trans (m := 5) fun tr₁ s₁ ⟨hs₁, hflushed₁⟩ => ?_
    exact (hs₁.take_header hflushed₁).trans fun tr₂ s₂ ⟨hs₂, hflushed₂⟩ =>
      hs₂.finish_admitted hflushed₂
  | admitted q =>
    refine hs.flush_requests.trans (m := 5) fun tr₁ s₁ ⟨hs₁, hflushed₁⟩ => ?_
    exact (hs₁.finish_admitted hflushed₁).trans (m := 1) fun tr₂ s₂ hs₂ => Within.now hs₂
  | answered a => exact hs.finish_answered.trans (m := 3) hdone
  | announced a =>
    refine hs.flush_answers.trans (m := 5) fun tr₁ s₁ ⟨hs₁, hflushed₁⟩ => ?_
    exact (hs₁.finish hflushed₁).trans (m := 4) hdone

end

/-- A live client that waits for nothing may ask. -/
theorem Live.exists_ask {h : ℕ} {tr : List (Event × Option Report)} {s : Network}
    (hs : Live h .idle tr s) (q : Question) (heap : ℕ → UInt8) :
    ∃ s', network.step s (.ask h q heap) = some (s', none) := by
  obtain ⟨etr, hserver⟩ := engine_of_run hs.run
  obtain ⟨c, hfind⟩ := hs.found
  obtain ⟨hmem, rfl⟩ := InputConnectionPool.find_spec hfind
  have hlt := (Engine.handles_of_run hserver hs.running).lt_accepted hmem
  obtain ⟨peer, hask⟩ : ∃ peer, (s.peer c.handle).ask q heap = some peer :=
    ⟨_, Peer.ask_eq_some_iff.2 ⟨hs.stands.running, hs.stands.output, rfl⟩⟩
  refine ⟨s.setPeer c.handle peer, ?_⟩
  simp only [network, step, if_neg (not_le.2 hlt), hask]
  rfl

theorem asked_append_own {h : ℕ} (tr : List (Event × Option Report))
    {ws : List (Event × Option Report)} (hown : Own h ws) : asked h (tr ++ ws) = asked h tr := by
  have hnone : ws.filterMap (ask? h) = [] := List.filterMap_eq_nil_iff.2 fun x hx => (hown x hx).2
  rw [asked, List.filterMap_append, hnone, List.append_nil]
  rfl

/-- While the server runs, the client of a live connection has its response after at most six
more events of the connection, none of them a request, and may ask again. -/
theorem completes {tr : List (Event × Option Report)} {s : Network} (h : network.Run tr s)
    (hshort : ∀ x ∈ tr, Short x.2) (hfault : s.server.fault = none) {g : ℕ}
    (hlive : ∃ c, s.server.connections.find g = some c) :
    ∃ ws s', ws.length ≤ 6 ∧ Own g ws ∧ network.Run (tr ++ ws) s' ∧
      ((∀ x ∈ ws, Short x.2) → (on g (exchanges (tr ++ ws))).map Prod.fst = asked g tr ∧
        delivered g (tr ++ ws) = (on g (exchanges (tr ++ ws))).map Prod.snd ∧
        ∀ q heap, ∃ s'', network.step s' (.ask g q heap) = some (s'', none)) := by
  obtain ⟨-, stage, hs, -⟩ := orderly_of_run h hshort
  obtain ⟨ws, s', hlength, hown, hrun, hdone⟩ :=
    (⟨h, hfault, hlive, hs g⟩ : Live g (stage g) tr s).complete
  refine ⟨ws, s', hlength, hown, hrun, fun hws => ?_⟩
  have hall : ∀ x ∈ tr ++ ws, Short x.2 := List.forall_mem_append.2 ⟨hshort, hws⟩
  have hidle := hdone hall
  obtain ⟨-, stage', hs', haccounted⟩ := orderly_of_run hrun hall
  have hstage := Stage.eq_idle_of_reading (hs' g).output hidle.stands.output
  obtain ⟨hasked, hanswered⟩ := haccounted g
  rw [hstage, Stage.waiting_idle, List.append_nil, asked_append_own tr hown] at hasked
  rw [hstage, Stage.coming_idle, List.append_nil] at hanswered
  exact ⟨hasked.symm, hanswered.symm, hidle.exists_ask⟩

/-- A request that has been asked, while another client's answer is half read. -/
theorem completes_asked : ∃ tr s, network.Run tr s ∧ delivered 0 tr = [] ∧
    (asked 0 tr).length = 1 ∧ ∃ ws s', ws.length ≤ 6 ∧ Own 0 ws ∧ network.Run (tr ++ ws) s' ∧
      ((∀ x ∈ ws, Short x.2) → (on 0 (exchanges (tr ++ ws))).map Prod.fst = asked 0 tr ∧
        delivered 0 (tr ++ ws) = (on 0 (exchanges (tr ++ ws))).map Prod.snd ∧
        ∀ q heap, ∃ s'', network.step s' (.ask 0 q heap) = some (s'', none)) := by
  have hrun := Machine.run_of_isSome network
    [.accept, .accept,
      .ask 1 ⟨.getGameInfo, ⟨⟨[], by decide +kernel⟩, by decide +kernel⟩⟩ fun _ => 0,
      .sent 1 0 25, .received 1 [] fun _ => 0, .received 1 [] fun _ => 0, .wrote 1 0 25,
      .delivered 1 [], .ask 0 ⟨.leave, ⟨⟨[], by decide +kernel⟩, by decide +kernel⟩⟩ fun _ => 0]
    (by decide +kernel)
  exact ⟨_, _, hrun, by decide +kernel, by decide +kernel,
    completes hrun (by decide +kernel) (by decide +kernel)
      (Option.isSome_iff_exists.1 (by decide +kernel))⟩

end Network

end SpaceBattle
