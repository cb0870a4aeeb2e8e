import SpaceBattle.SegmentedNetwork

/-!
# The engine in segments

`SegmentedEngine` is the engine with composed reads : an event `received` is one part for the
read of a connection, stored behind what its `Inbox` holds, and the handler runs with the part
that fills it. The answer of such a step tells what the handler was given (`Handled`).

What the handlers do in all runs is what `Engine` does (`run_engine_iff`). The parts are values
here; `ServerMemory` has them in memory.
-/

namespace SpaceBattle

open Cpp AsyncWrite

/-- The buffer the handler of a read was given, and its answer if it was a body's. -/
inductive Handled
  | header (data : List UInt8)
  | body (data : List UInt8) (answer : Option Response)

namespace Handled

def data : Handled → List UInt8
  | header data => data
  | body data _ => data

def answer : Handled → Option Response
  | header _ => none
  | body _ answer => answer

end Handled

/-- The engine, and the reads outstanding on its connections, by handle. -/
structure SegmentedEngine where
  engine : Engine
  inbox : ℕ → Inbox

namespace SegmentedEngine

/-- What the handler of a connection's read is given and answers. -/
def handled (s : SegmentedEngine) (handle : ℕ) (data : List UInt8) (answer : Option Response) :
    Handled :=
  match (s.engine.session handle).input.reading with
  | .header => .header data
  | .body => .body data answer

/-- A part for the read of a connection. Its handler starts the next read, unless it throws. -/
def onReceived (s : SegmentedEngine) (handle : ℕ) (part beyond : List UInt8) (heap : ℕ → UInt8) :
    Option (SegmentedEngine × Option Handled) :=
  if s.engine.fault.isSome || (s.engine.connections.find handle).isNone then none
  else
    match (s.inbox handle).store part with
    | none => none
    | some (inbox, none) => some (⟨s.engine, Function.update s.inbox handle inbox⟩, none)
    | some (_, some data) =>
      (Engine.step s.engine (.received handle data beyond heap)).map fun r =>
        (⟨r.1, if r.1.fault.isSome then s.inbox
            else Function.update s.inbox handle (Inbox.new (r.1.session handle).input.wanted)⟩,
          some (s.handled handle data r.2))

/-- One event, and what a handler of a read was given. -/
def step (s : SegmentedEngine) : Engine.Event → Option (SegmentedEngine × Option Handled)
  | .received handle part beyond heap => s.onReceived handle part beyond heap
  | .accept =>
    (Engine.step s.engine .accept).map fun r =>
      (⟨r.1, Function.update s.inbox s.engine.connections.accepted (Inbox.new 25)⟩, none)
  | e => (Engine.step s.engine e).map fun r => (⟨r.1, s.inbox⟩, none)

end SegmentedEngine

open SegmentedEngine

/-- The engine in segments, from no connections. -/
def segmentedEngine : Machine SegmentedEngine Engine.Event (Option Handled) :=
  ⟨⟨SpaceBattle.engine.init, fun _ => Inbox.new 25⟩, SegmentedEngine.step⟩

namespace SegmentedEngine

/-! ## What is seen -/

/-- The event of the engine, if a handler has run : its read completes with the buffer the
handler was given. -/
def seen : Engine.Event × Option Handled → Option (Engine.Event × Option Response)
  | (.received handle _ beyond heap, o) =>
    o.map fun handled => (.received handle handled.data beyond heap, handled.answer)
  | (e, _) => some (e, none)

/-- What a part does. -/
theorem onReceived_cases {s s' : SegmentedEngine} {h : ℕ} {part beyond : List UInt8}
    {heap : ℕ → UInt8} {o : Option Handled}
    (hstep : s.onReceived h part beyond heap = some (s', o)) :
    ∃ inbox, ((s.inbox h).store part = some (inbox, none) ∧ o = none ∧
        s' = ⟨s.engine, Function.update s.inbox h inbox⟩) ∨
      ∃ data engine answer, (s.inbox h).store part = some (inbox, some data) ∧
        SpaceBattle.engine.step s.engine (.received h data beyond heap) =
          some (engine, answer) ∧
        o = some (s.handled h data answer) ∧
        s' = ⟨engine, if engine.fault.isSome then s.inbox
          else Function.update s.inbox h (Inbox.new (engine.session h).input.wanted)⟩ := by
  unfold onReceived at hstep
  split at hstep
  · cases hstep
  cases hstore : (s.inbox h).store part with
  | none => simp [hstore] at hstep
  | some r =>
    obtain ⟨inbox, _ | data⟩ := r
    · simp only [hstore, Option.some.injEq, Prod.mk.injEq] at hstep
      exact ⟨inbox, Or.inl ⟨rfl, hstep.2.symm, hstep.1.symm⟩⟩
    · simp only [hstore] at hstep
      obtain ⟨⟨engine, answer⟩, hengine, heq⟩ := Option.map_eq_some_iff.1 hstep
      obtain ⟨rfl, rfl⟩ := Prod.mk.inj heq
      exact ⟨inbox, Or.inr ⟨data, engine, answer, rfl, hengine, rfl, rfl⟩⟩

@[simp] theorem data_handled (s : SegmentedEngine) (h : ℕ) (data : List UInt8)
    (answer : Option Response) : (s.handled h data answer).data = data := by
  unfold handled
  split <;> rfl

/-- A handler answers as the engine does. -/
theorem answer_handled {s : SegmentedEngine} {h : ℕ} {data beyond : List UInt8}
    {heap : ℕ → UInt8} {engine : Engine} {answer : Option Response}
    (hstep : SpaceBattle.engine.step s.engine (.received h data beyond heap) =
      some (engine, answer)) : (s.handled h data answer).answer = answer := by
  unfold handled
  obtain ⟨-, hcompletion⟩ := Engine.completion_of_step hstep
  cases hcompletion with
  | decoded _ hreading | refused _ hreading | answered _ hreading => rw [hreading]; rfl

/-! ## The refinement -/

/-- Every read that is outstanding goes on. -/
def Sound (s : SegmentedEngine) : Prop :=
  ∀ h, (s.inbox h).Filling (s.engine.session h).input.wanted

theorem sound_init : segmentedEngine.init.Sound := fun _ => Inbox.filling_new 25

/-- Another read of a connection, the others as they were. -/
theorem Sound.update {s : SegmentedEngine} (hs : s.Sound) {h : ℕ} {engine : Engine} {inbox : Inbox}
    (hnew : inbox.Filling (engine.session h).input.wanted)
    (hother : ∀ g, g ≠ h → engine.session g = s.engine.session g) :
    (⟨engine, Function.update s.inbox h inbox⟩ : SegmentedEngine).Sound := by
  intro g
  rcases eq_or_ne g h with rfl | hne
  · simpa using hnew
  · simpa [Function.update_of_ne hne, hother g hne] using hs g

/-- A step keeps the reads going, and is quiet or a step of the engine. -/
def Refines (s s' : SegmentedEngine) (e : Engine.Event) (o : Option Handled) : Prop :=
  s'.Sound ∧ (seen (e, o) = none → s'.engine = s.engine) ∧
    ∀ x, seen (e, o) = some x → SpaceBattle.engine.step s.engine x.1 = some (s'.engine, x.2)

section

variable {s s' : SegmentedEngine} {o : Option Handled} (hs : s.Sound)

include hs

theorem Sound.received {h : ℕ} {part beyond : List UInt8} {heap : ℕ → UInt8}
    (hstep : s.onReceived h part beyond heap = some (s', o)) :
    Refines s s' (.received h part beyond heap) o := by
  obtain ⟨inbox, ⟨hstore, rfl, rfl⟩ | ⟨data, engine, answer, hstore, hengine, rfl, rfl⟩⟩ :=
    onReceived_cases hstep
  · obtain ⟨-, ⟨-, -, hfilling⟩ | ⟨hsome, -⟩⟩ := (hs h).store hstore
    · exact ⟨hs.update hfilling fun _ _ => rfl, fun _ => rfl, fun x hx => by cases hx⟩
    · cases hsome
  · refine ⟨?_, fun hx => (by cases hx), fun x hx => ?_⟩
    · obtain ⟨hfault, hcompletion⟩ := Engine.completion_of_step hengine
      cases hcompletion with
      | refused => exact hs
      | decoded | answered =>
        simp only [Engine.setSession, hfault, Option.isSome_none, Bool.false_eq_true, if_false]
        exact hs.update (Inbox.filling_new _) fun g hne => Function.update_of_ne hne _ _
    · obtain rfl := Option.some.inj hx
      change SpaceBattle.engine.step s.engine
        (.received h (s.handled h data answer).data beyond heap) =
          some (engine, (s.handled h data answer).answer)
      rw [data_handled, answer_handled hengine]
      exact hengine

theorem Sound.accept (hstep : segmentedEngine.step s .accept = some (s', o)) :
    Refines s s' .accept o := by
  obtain ⟨⟨engine, answer⟩, hengine, heq⟩ := Option.map_eq_some_iff.1 hstep
  obtain ⟨rfl, rfl⟩ := Prod.mk.inj heq
  have hengine : SpaceBattle.engine.step s.engine .accept = some (engine, answer) := hengine
  have hcompletion := (Engine.completion_of_step hengine).2
  cases hcompletion with
  | accepted =>
    refine ⟨hs.update ?_ fun g hne => Engine.setSession_session_of_ne _ _ hne,
      fun hx => (by cases hx), fun x hx => ?_⟩
    · change (Inbox.new 25).Filling ((s.engine.setSession s.engine.connections.accepted
        Session.new).session s.engine.connections.accepted).input.wanted
      rw [Engine.setSession_session_self]
      exact Inbox.filling_new 25
    · obtain rfl := Option.some.inj hx
      exact hengine

/-- An event that is no read and no accept leaves the reads as they are. -/
theorem Sound.other {e : Engine.Event} {engine : Engine} {answer : Option Response}
    (hengine : SpaceBattle.engine.step s.engine e = some (engine, answer))
    (hseen : seen (e, none) = some (e, none)) (haccept : e ≠ .accept) :
    Refines s ⟨engine, s.inbox⟩ e none := by
  have hcompletion := (Engine.completion_of_step hengine).2
  have hrefines (hanswer : answer = none) (hsame : ∀ h, (engine.session h).input =
      (s.engine.session h).input) : Refines s ⟨engine, s.inbox⟩ e none := by
    subst hanswer
    refine ⟨fun h => by simpa [hsame h] using hs h, fun hx => ?_, fun x hx => ?_⟩
    · cases hseen.symm.trans hx
    · obtain rfl := Option.some.inj (hseen.symm.trans hx)
      exact hengine
  cases hcompletion with
  | accepted => exact absurd rfl haccept
  | decoded | refused | answered => cases hseen
  | lost | unclosed | aborted => exact hrefines rfl fun _ => rfl
  | @wrote c k n socket =>
    refine hrefines rfl fun h => ?_
    rcases eq_or_ne h c.handle with rfl | hne
    · rw [Engine.setSession_session_self]
    · rw [Engine.setSession_session_of_ne _ _ hne]

end

/-- The engine in segments refines the engine. -/
theorem refinement : Machine.Refinement segmentedEngine SpaceBattle.engine Sound engine seen where
  init := sound_init
  map_init := rfl
  step := by
    intro _ s e s' o _ hs hstep
    cases e with
    | accept => exact hs.accept hstep
    | received => exact hs.received hstep
    | failed | wrote | aborted =>
      obtain ⟨⟨engine, answer⟩, hengine, heq⟩ := Option.map_eq_some_iff.1 hstep
      obtain ⟨rfl, rfl⟩ := Prod.mk.inj heq
      exact hs.other hengine rfl nofun

/-- Nothing happens in an engine that has stopped. -/
theorem running_of_step {s s' : SegmentedEngine} {e : Engine.Event} {o : Option Handled}
    (hstep : segmentedEngine.step s e = some (s', o)) : s.engine.fault = none := by
  by_contra hne
  have hfault := Option.isSome_iff_ne_none.2 hne
  cases e <;> simp [segmentedEngine, step, onReceived, Engine.step, hfault] at hstep

/-- Only a handler of a connection that is gone leaves the fault `destroyed`. -/
theorem destroyed_iff {tr : List (Engine.Event × Option Handled)} {s s' : SegmentedEngine}
    {e : Engine.Event} {o : Option Handled} (h : segmentedEngine.Run tr s)
    (hstep : segmentedEngine.step s e = some (s', o)) :
    s'.engine.fault = some .destroyed ↔ ∃ handle operation, e = .aborted handle operation := by
  have hrunning := running_of_step hstep
  obtain ⟨-, hquiet, hloud⟩ := refinement.step (refinement.run h).2 (refinement.run h).1 hstep
  cases hseen : seen (e, o) with
  | none =>
    have hreceived : ∀ handle operation, e ≠ .aborted handle operation := by
      rintro handle operation rfl
      cases hseen
    rw [hquiet hseen, hrunning]
    simpa using hreceived
  | some x =>
    have hevent : (∃ handle operation, x.1 = .aborted handle operation) ↔
        ∃ handle operation, e = .aborted handle operation := by
      cases e with
      | received =>
        obtain ⟨handled, -, rfl⟩ := Option.map_eq_some_iff.1 hseen
        simp
      | accept | failed | wrote | aborted =>
        obtain rfl := Option.some.inj hseen
        rfl
    obtain ⟨-, hcompletion⟩ := Engine.completion_of_step (hloud x hseen)
    rw [← hevent]
    exact hcompletion.destroyed_iff hrunning

/-! ## Every run of the engine -/

/-- While the engine runs, nothing is stored that has not been handed to a handler. -/
def Clear (s : SegmentedEngine) : Prop :=
  s.engine.fault = none → ∀ h, (s.inbox h).stored = []

/-- A read that the engine can do can be given a part of what is left of its data. -/
theorem Sound.exists_received {s : SegmentedEngine} (hs : s.Sound) {h : ℕ}
    {data beyond rest : List UInt8} {heap : ℕ → UInt8} {r : Engine × Option Response}
    (hengine : SpaceBattle.engine.step s.engine (.received h data beyond heap) = some r)
    (hdata : (s.inbox h).stored ++ rest = data) :
    ∃ part rest', rest = part ++ rest' ∧
      ∃ s' o, s.onReceived h part beyond heap = some (s', o) := by
  obtain ⟨engine, answer⟩ := r
  obtain ⟨hfault, hcompletion⟩ := Engine.completion_of_step hengine
  obtain ⟨c, hfind⟩ := hcompletion.exists_find
  have hlength := Engine.length_of_received hengine
  obtain ⟨n, hle, hstore⟩ := (hs h).exists_store
  rw [← hlength, ← hdata, List.length_append, Nat.add_le_add_iff_left] at hle
  obtain ⟨⟨inbox, call⟩, hstored⟩ := hstore (rest.take n) (List.length_take_of_le hle)
  refine ⟨rest.take n, rest.drop n, (List.take_append_drop n rest).symm, ?_⟩
  obtain ⟨-, ⟨rfl, -, -⟩ | ⟨rfl, hfull⟩⟩ := (hs h).store hstored
  · simp [onReceived, hfault, hfind, hstored]
  · -- the last part : what is stored is the data of the engine
    have hall : rest.take n = rest := by
      rw [List.take_eq_self_iff]
      rw [← hlength, ← hdata, List.length_append, List.length_append, List.length_take] at hfull
      omega
    have hengine : Engine.step s.engine (.received h data beyond heap) = some (engine, answer) :=
      hengine
    rw [hall] at hstored ⊢
    rw [hdata] at hstored
    simp [onReceived, hfault, hfind, hstored, hengine]

/-- A read of the engine can be done part by part. -/
theorem exists_exec_received {n t : Engine} {h : ℕ} {data beyond : List UInt8} {heap : ℕ → UInt8}
    {answer : Option Response}
    (hn : SpaceBattle.engine.step n (.received h data beyond heap) = some (t, answer))
    (s : SegmentedEngine) (hs : s.Sound) (hengine : s.engine = n) (hclear : s.Clear) :
    ∃ es s' tr, segmentedEngine.exec s es = some (s', tr) ∧
      tr.filterMap seen = [(.received h data beyond heap, answer)] ∧ s'.engine = t ∧ s'.Clear := by
  have hfault := (Engine.completion_of_step hn).1
  refine Machine.exists_exec_seen (P := fun s => s.Sound ∧ s.engine = n ∧
      (∀ g, g ≠ h → (s.inbox g).stored = []) ∧ ∃ rest, (s.inbox h).stored ++ rest = data)
    (fun s => data.length - (s.inbox h).stored.length) ?_ s
    ⟨hs, hengine, fun g _ => hclear (hengine ▸ hfault) g, data, by
      rw [hclear (hengine ▸ hfault) h, List.nil_append]⟩
  rintro s ⟨hs, rfl, hclear, rest, hdata⟩
  obtain ⟨part, rest', rfl, s', o, hstep⟩ := hs.exists_received hn hdata
  obtain ⟨hs', hquiet, hloud⟩ := hs.received hstep
  refine ⟨.received h part beyond heap, s', o, hstep, ?_⟩
  obtain ⟨inbox, ⟨hstore, rfl, rfl⟩ | ⟨data', engine, answer', hstore, -, rfl, rfl⟩⟩ :=
    onReceived_cases hstep
  · obtain ⟨hstored, ⟨-, hpos, -⟩ | ⟨hsome, -⟩⟩ := (hs h).store hstore
    · refine Or.inl ⟨rfl, ⟨hs', rfl, fun g hne => ?_, rest', ?_⟩, ?_⟩
      · simpa [Function.update_of_ne hne] using hclear g hne
      · simpa [hstored] using hdata
      · rw [← hdata]
        simp only [Function.update_self, hstored, List.length_append]
        omega
    · cases hsome
  · obtain ⟨-, ⟨hnone, -⟩ | ⟨hsome, hfull⟩⟩ := (hs h).store hstore
    · cases hnone
    obtain rfl : data' = data := by
      obtain rfl := Option.some.inj hsome
      rw [← Engine.length_of_received hn, ← hdata, ← List.append_assoc,
        @List.length_append _ _ rest'] at hfull
      rw [← hdata, ← List.append_assoc, List.eq_nil_of_length_eq_zero (by omega : rest'.length = 0),
        List.append_nil]
    have hengine : SpaceBattle.engine.step s.engine
        (.received h (s.handled h data' answer').data beyond heap) =
          some (engine, (s.handled h data' answer').answer) := hloud _ rfl
    rw [data_handled] at hengine
    obtain ⟨rfl, ho⟩ := Prod.mk.inj (Option.some.inj (hn.symm.trans hengine))
    refine Or.inr ⟨?_, rfl, fun hrunning g => ?_⟩
    · simp [seen, ho]
    · have hrunning : t.fault = none := hrunning
      simp only [hrunning, Option.isSome_none, Bool.false_eq_true, if_false]
      rcases eq_or_ne g h with rfl | hne
      · simp [Inbox.new]
      · simpa [Function.update_of_ne hne] using hclear g hne

/-- An event that is none of a read. -/
theorem exists_exec_of_step {s s' : SegmentedEngine} {e : Engine.Event} {t : Engine}
    {answer : Option Response} (hstep : segmentedEngine.step s e = some (s', none))
    (hrefines : Refines s s' e none) (hseen : seen (e, none) = some (e, none)) (hclear : s'.Clear)
    (hn : SpaceBattle.engine.step s.engine e = some (t, answer)) :
    ∃ es s' tr, segmentedEngine.exec s es = some (s', tr) ∧
      tr.filterMap seen = [(e, answer)] ∧ s'.engine = t ∧ s'.Clear := by
  obtain ⟨rfl, rfl⟩ := Prod.mk.inj (Option.some.inj (hn.symm.trans (hrefines.2.2 _ hseen)))
  exact ⟨[e], s', [(e, none)], by simp [Machine.exec, hstep], by simp [hseen], rfl, hclear⟩

/-- Every event of the engine can be brought about. -/
theorem exists_exec {s : SegmentedEngine} {e : Engine.Event} {t : Engine}
    {answer : Option Response} (hs : s.Sound) (hclear : s.Clear)
    (hstep : SpaceBattle.engine.step s.engine e = some (t, answer)) :
    ∃ es s' tr, segmentedEngine.exec s es = some (s', tr) ∧
      tr.filterMap seen = [(e, answer)] ∧ s'.engine = t ∧ s'.Clear := by
  have hfault := (Engine.completion_of_step hstep).1
  cases e with
  | received h data beyond heap => exact exists_exec_received hstep s hs rfl hclear
  | accept =>
    have hfine : segmentedEngine.step s .accept = some (⟨t, Function.update s.inbox
        s.engine.connections.accepted (Inbox.new 25)⟩, none) := congrArg (Option.map _) hstep
    refine exists_exec_of_step hfine (hs.accept hfine) rfl (fun _ g => ?_) hstep
    rcases eq_or_ne g s.engine.connections.accepted with rfl | hne
    · simp [Inbox.new]
    · simpa [Function.update_of_ne hne] using hclear hfault g
  | failed | wrote | aborted =>
    refine exists_exec_of_step ?_ (hs.other hstep rfl nofun) rfl (fun _ => hclear hfault) hstep
    exact congrArg (Option.map _) hstep

/-- What the handlers of the engine in segments do, in all its runs, is what the engine does. -/
theorem run_engine_iff {tr : List (Engine.Event × Option Response)} {n : Engine} :
    SpaceBattle.engine.Run tr n ↔ ∃ str s, segmentedEngine.Run str s ∧
      str.filterMap seen = tr ∧ s.engine = n := by
  refine ⟨fun h => ?_, ?_⟩
  · obtain ⟨str, s, hrun, hseen, hengine, -⟩ := refinement.exists_run (J := Clear)
      (fun _ _ => rfl) (fun _ hs hclear hstep => exists_exec hs hclear hstep) h
    exact ⟨str, s, hrun, hseen, hengine⟩
  · rintro ⟨str, s, hrun, rfl, rfl⟩
    exact (refinement.run hrun).2

end SegmentedEngine

end SpaceBattle
