import SpaceBattle.Pipelining

/-!
# Keeping the service running

Nothing catches what a handler of a completion throws, so it ends `io_service::run` for
every connection. Two things throw : `HeaderRequest`, on 25 bytes whose fields are not
numbers within their bounds, and `close`, on an error of the socket. Processing a request
throws nothing, whatever the body holds. And a connection that is destroyed while something
is outstanding on it, a write of its own or the read of another connection with its id,
leaves a handler to run on what is gone.

`service_iff` : an engine still runs, and owes no such handler, if and only if every header
received was numeric, every close succeeded, and every connection that was lost was writing
nothing and shared its id with no other. Then, and only then, has each completion left the
other connections alone, and they are served : their headers are decoded, and their bodies
answered.
-/

namespace SpaceBattle

open Cpp AsyncWrite

namespace Engine

/-! ## What is to be kept -/

/-- The engine runs, and no handler is still to run on a connection that is gone. -/
def Sustained (s : Engine) : Prop :=
  s.fault = none ∧ ∀ handle operation, engine.step s (.aborted handle operation) = none

/-- The engine runs, and the connection is live with the session. -/
structure Continues (s : Engine) (handle : ℕ) (session : Session) : Prop where
  running : s.fault = none
  live : ∃ c, s.connections.find handle = some c
  session : s.session handle = session

/-- The outstanding read of the connection completes with any bytes. If they are a header
that is decoded, its body is read next; if they are a body, it is answered, the answer
starts to leave, and the next header is read. -/
def Serves (s : Engine) (handle : ℕ) : Prop :=
  ∀ data beyond heap, data.length = (s.session handle).input.wanted →
    ∃ s' o, engine.step s (.received handle data beyond heap) = some (s', o) ∧
      ((s.session handle).input.reading = .header → ∀ input,
        (s.session handle).input.onHeader (data ++ beyond) = .ok input →
          s'.Continues handle { s.session handle with input := input }) ∧
      ((s.session handle).input.reading = .body → ∃ c response rp rooms,
        s.connections.find handle = some c ∧
        c.requestProcesser.process s.connections.roomInterface
          ((s.session handle).input.request (data ++ beyond)) = .ok (response, rp, rooms) ∧
        o = some response ∧ s'.Continues handle ⟨(s.session handle).input.read,
          (s.session handle).socket.asyncWrite response.bytes⟩)

/-- Nothing leaves the handlers of a completion, none is left to run on a connection that is
gone, and every connection but the one it belongs to stays as it is and is served. -/
structure Confined (s : Engine) (e : Event) (_ : Option Response) (s' : Engine) : Prop where
  sustained : s'.Sustained
  others : ∀ c ∈ s.connections.inputCollection, e.handle ≠ some c.handle →
    c ∈ s'.connections.inputCollection ∧ s'.session c.handle = s.session c.handle ∧
      s'.Serves c.handle

/-! ## What it takes -/

/-- The connection shares its id with no other live connection. -/
def OwnId (s : Engine) (handle : ℕ) : Prop :=
  ∀ c ∈ s.connections.inputCollection, ∀ c' ∈ s.connections.inputCollection,
    c.handle = handle → c'.id = c.id → c' = c

/-- The bytes of a header are numeric. The socket of a connection that is lost closes, it is
writing nothing, and its id is its own. -/
def Handled (s : Engine) : Event → Prop
  | .received handle data beyond _ => (s.session handle).input.reading = .header →
      Header.Numerals (data ++ beyond) 25 2 [shortMax, ushortMax, 2 ^ 31 - 1]
  | .failed handle shutdown closed => (shutdown = none ∧ closed = none) ∧
      (s.session handle).socket.outstanding = [] ∧ s.OwnId handle
  | _ => True

/-! ## Steps -/

theorem sustained_iff {s : Engine} : s.Sustained ↔ s.fault = none ∧ s.aborted = [] := by
  refine and_congr_right fun hfault => ?_
  constructor
  · intro h
    refine List.eq_nil_iff_forall_not_mem.2 fun ⟨handle, operation⟩ hmem => ?_
    have hnone := h handle operation
    simp [engine, step, hfault, hmem] at hnone
  · rintro h handle operation
    simp [engine, step, hfault, h]

/-- While the engine runs it serves every live connection. -/
theorem serves_of_mem {s : Engine} (hfault : s.fault = none) {c : Protocol}
    (hc : c ∈ s.connections.inputCollection) : s.Serves c.handle := by
  intro data beyond heap hlength
  obtain ⟨c', hfind⟩ := InputConnectionPool.exists_find_iff.2
    ⟨c.id, InputConnectionPool.mem_names_of_mem hc⟩
  have hhandle := (InputConnectionPool.find_spec hfind).2
  rw [← hhandle] at hlength hfind ⊢
  have hstep := step_received hfault hfind hlength beyond heap
  cases hreading : (s.session c'.handle).input.reading with
  | header =>
    rw [hreading] at hstep
    refine ⟨_, _, hstep, fun _ input hinput => ?_, by simp⟩
    rw [onHeader, hinput]
    exact ⟨hfault, ⟨c', hfind⟩, setSession_session_self _ _ _⟩
  | body =>
    obtain ⟨response, rp, rooms, hprocess, -⟩ := RequestProcesser.process_outcome
      c'.requestProcesser s.connections.roomInterface
      ((s.session c'.handle).input.request (data ++ beyond))
    rw [hreading] at hstep
    simp only [onBody, hprocess] at hstep
    refine ⟨_, _, hstep, by simp, fun _ => ⟨c', response, rp, rooms, hfind, hprocess, rfl,
      hfault, ?_, ?_⟩⟩
    · rw [InputConnectionPool.exists_find_iff, InputConnectionPool.names_assign,
        ← InputConnectionPool.exists_find_iff]
      exact ⟨c', hfind⟩
    · rw [(process_bytes hprocess).1]
      exact setSession_session_self _ _ _

/-- What is outstanding on the connections that go with `c` : nothing, if `c` is writing
nothing and no other has its id. -/
theorem outstanding_eq_nil_iff {connections : InputConnectionPool} {writes : ℕ → ℕ} {c : Protocol}
    (hc : c ∈ connections.inputCollection) (hhandles : connections.Handles) :
    outstanding connections writes c = [] ↔ writes c.handle = 0 ∧
      ∀ c' ∈ connections.inputCollection, c'.id = c.id → c' = c := by
  simp only [outstanding, List.flatMap_eq_nil_iff, List.mem_filter, decide_eq_true_eq,
    List.append_eq_nil_iff, ite_eq_left_iff, List.cons_ne_nil, imp_false, not_not,
    List.map_eq_nil_iff, List.range_eq_nil]
  constructor
  · intro h
    refine ⟨(h c ⟨hc, rfl⟩).2, fun c' hc' hid => ?_⟩
    exact hhandles.eq hc' hc (h c' ⟨hc', hid⟩).1
  · rintro ⟨hwrites, hown⟩ c' ⟨hc', hid⟩
    rw [hown c' hc' hid]
    exact ⟨rfl, hwrites⟩

/-- A completion in an engine that is sustained leaves it so exactly if it is handled. -/
theorem Completion.sustained_iff {s s' : Engine} {e : Event} {o : Option Response}
    (h : Completion s e o s') (hs : s.Sustained) (hhandles : s.connections.Handles) :
    s'.Sustained ↔ Handled s e := by
  obtain ⟨hfault, hnone⟩ := Engine.sustained_iff.1 hs
  rw [Engine.sustained_iff]
  cases h with
  | accepted | answered => simp_all [Handled, onAccept, setSession]
  | @decoded c data beyond _ input _ _ _ hheader =>
    have hnumeric := (InputConnection.exists_onHeader_iff _ _).1 ⟨input, hheader⟩
    simpa [Handled, setSession, hfault, hnone] using fun _ => hnumeric
  | @refused c data beyond _ e _ hreading _ hheader =>
    have hnumeric := (InputConnection.exists_onHeader_iff (s.session c.handle).input
      (data ++ beyond)).not.1 (by simp [hheader])
    simpa [Handled, hreading] using hnumeric
  | @lost c hfind =>
    have hc := (InputConnectionPool.find_spec hfind).1
    have hown : s.OwnId c.handle ↔ ∀ c' ∈ s.connections.inputCollection, c'.id = c.id → c' = c := by
      refine ⟨fun hown c' hc' => hown c hc c' hc' rfl, fun hown c₁ hc₁ c₂ hc₂ hhandle hid => ?_⟩
      obtain rfl := hhandles.eq hc₁ hc hhandle
      exact hown c₂ hc₂ hid
    simp only [Handled, hfault, hnone, List.nil_append, true_and, hown,
      outstanding_eq_nil_iff hc hhandles, writes, List.length_eq_zero_iff]
  | unclosed _ hclose =>
    simp only [Handled, reduceCtorEq, false_and, false_iff]
    rintro ⟨hcloses, -⟩
    rw [close_eq_ok_iff.2 hcloses] at hclose
    cases hclose
  | wrote => simp [Handled, setSession, hfault, hnone]
  | aborted hmem => simp [hnone] at hmem

/-- An engine that is sustained was so before. -/
theorem Completion.sustained_before {s s' : Engine} {e : Event} {o : Option Response}
    (h : Completion s e o s') (hfault : s.fault = none) (hs' : s'.Sustained) : s.Sustained := by
  obtain ⟨hfault', hnone⟩ := Engine.sustained_iff.1 hs'
  refine Engine.sustained_iff.2 ⟨hfault, ?_⟩
  cases h with
  | accepted | decoded | answered | wrote => exact hnone
  | refused | unclosed | aborted => cases hfault'
  | lost => exact (List.append_eq_nil_iff.1 hnone).1

/-- A completion that is handled leaves the other connections as they are. -/
theorem Completion.others {s s' : Engine} {e : Event} {o : Option Response}
    (h : Completion s e o s') (hhandles : s.connections.Handles) (hfault : s'.fault = none)
    (hhandled : Handled s e) {c : Protocol} (hc : c ∈ s.connections.inputCollection)
    (hne : e.handle ≠ some c.handle) :
    c ∈ s'.connections.inputCollection ∧ s'.session c.handle = s.session c.handle := by
  have hother {h : ℕ} (he : e.handle = some h) : c.handle ≠ h := fun heq => hne (heq ▸ he)
  cases h with
  | accepted =>
    exact ⟨List.mem_append_left _ hc, setSession_session_of_ne s _ (hhandles.lt_accepted hc).ne⟩
  | decoded | wrote => exact ⟨hc, setSession_session_of_ne s _ (hother rfl)⟩
  | refused | unclosed | aborted => cases hfault
  | @answered c' =>
    refine ⟨List.mem_map.2 ⟨c, hc, ?_⟩, setSession_session_of_ne s _ (hother rfl)⟩
    rw [if_neg (hother rfl)]
  | @lost c' hfind =>
    have hc' := (InputConnectionPool.find_spec hfind).1
    have hid : c.id ≠ c'.id := fun heq => hother rfl (by rw [hhandled.2.2 c' hc' c hc rfl heq])
    exact ⟨List.mem_filter.2 ⟨hc, by simpa using hid⟩, rfl⟩

/-- A completion in an engine that is sustained is confined exactly if it is handled. -/
theorem confined_iff {s s' : Engine} {e : Event} {o : Option Response} (hs : s.Sustained)
    (hhandles : s.connections.Handles) (hstep : engine.step s e = some (s', o)) :
    Confined s e o s' ↔ Handled s e := by
  obtain ⟨-, hcompletion⟩ := completion_of_step hstep
  have hiff := hcompletion.sustained_iff hs hhandles
  refine ⟨fun hconfined => hiff.1 hconfined.sustained, fun hhandled => ?_⟩
  have hsustained := hiff.2 hhandled
  refine ⟨hsustained, fun c hc hne => ?_⟩
  obtain ⟨hmem, hsession⟩ := hcompletion.others hhandles hsustained.1 hhandled hc hne
  exact ⟨hmem, hsession, serves_of_mem hsustained.1 hmem⟩

/-! ## Runs -/

/-- An engine still runs, and no handler is to run on a connection that is gone, if and only
if every header it received was numeric and every connection that was lost closed, was
writing nothing and had an id of its own. Each completion has left the other connections
alone, and they are served, if and only if so. -/
theorem service_iff {tr : List (Event × Option Response)} {s : Engine} (h : engine.Run tr s) :
    (s.Sustained ↔ engine.Along (fun s e _ _ => Handled s e) tr) ∧
    (engine.Along Confined tr ↔ engine.Along (fun s e _ _ => Handled s e) tr) := by
  induction h with
  | nil =>
    exact ⟨iff_of_true (sustained_iff.2 ⟨rfl, rfl⟩) Machine.along_nil,
      iff_of_true Machine.along_nil Machine.along_nil⟩
  | @snoc tr s s' e o hrun hstep ih =>
    obtain ⟨hsustained, hconfined⟩ := ih
    obtain ⟨hfault, hcompletion⟩ := completion_of_step hstep
    have hhandles := handles_of_run hrun hfault
    rw [Machine.along_snoc hrun hstep, Machine.along_snoc hrun hstep, hconfined, ← hsustained]
    constructor
    · constructor
      · intro hs'
        have hs := hcompletion.sustained_before hfault hs'
        exact ⟨hs, (hcompletion.sustained_iff hs hhandles).1 hs'⟩
      · rintro ⟨hs, hhandled⟩
        exact (hcompletion.sustained_iff hs hhandles).2 hhandled
    · exact and_congr_right fun hs => confined_iff hs hhandles hstep

/-- A client logs in, reads its answer and leaves; another stays. -/
theorem service_iff_leaves : ∃ tr s, engine.Run tr s ∧ s.connections.names = [(1, 2)] ∧
    s.connections.roomInterface.general.client = [] ∧ s.aborted = [] ∧
    (s.Sustained ↔ engine.Along (fun s e _ _ => Handled s e) tr) := by
  have hrun := Machine.run_of_isSome engine
    [.accept, .accept,
      .received 0 ((makeRequest .clientConnect [lit "ada"]).bytes.take 25) [] fun _ => 0,
      .received 0 ((makeRequest .clientConnect [lit "ada"]).bytes.drop 25) [] fun _ => 0,
      .wrote 0 0 29, .failed 0 none none] (by decide +kernel)
  exact ⟨_, _, hrun, by decide +kernel, by decide +kernel, by decide +kernel, (service_iff hrun).1⟩

/-- 25 bytes from one client that are no header end the service for both. -/
theorem stopped_by_header : ∃ tr s, engine.Run tr s ∧ s.connections.names = [(0, 1), (1, 2)] ∧
    s.fault = some (.thrown (.invalidArgument "stoi")) ∧ ∀ e, engine.step s e = none := by
  have hrun := Machine.run_of_isSome engine
    [.accept, .accept, .received 0 (List.replicate 25 0x78) [0] fun _ => 0] (by decide +kernel)
  refine ⟨_, _, hrun, by decide +kernel, by decide +kernel, fun e => ?_⟩
  rfl

/-- Three clients that send nothing, of which the last has the id of the second. When the first
and the last leave, the second is destroyed while it is read. -/
example : ∃ tr s, engine.Run tr s ∧ s.connections.names = [] ∧ s.fault = some .destroyed := by
  have hrun := Machine.run_of_isSome engine
    [.accept, .accept, .failed 0 none none, .accept, .failed 2 none none, .aborted 1 .read]
    (by decide +kernel)
  exact ⟨_, _, hrun, by decide +kernel, by decide +kernel⟩

end Engine

end SpaceBattle
