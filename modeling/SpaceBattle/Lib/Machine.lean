import Mathlib.Data.List.Basic
import Mathlib.Data.List.Infix

/-!
# Event machines with answers

A machine is a guarded, executable step function : `step s e` is `some (s', o)` if the
event `e` can happen in the state `s`, leads to `s'` and is answered `o`, and `none` if
it cannot happen. `Run tr s` says that the events of the trace `tr`, in order, lead from
the initial state to `s` with the answers `tr` records.

An invariant is proved one step at a time (`Run.invariant`), also against the trace so
far (`Run.invariant_trace`) and under a condition that every step of the run meets
(`Along.invariant`). `Along` is the condition on the steps of a run, `Throughout` the
condition on the states it passes. `Run.fold` compares a machine with a fold of its
trace : the abstract state is computed from the events and their answers alone.
-/

/-- A machine : an initial state and a guarded step function. -/
structure Machine (σ ε ω : Type*) where
  /-- The initial state. -/
  init : σ
  /-- The next state and the answer, if the event can happen. -/
  step : σ → ε → Option (σ × ω)

namespace Machine

variable {σ ε ω : Type*} (M : Machine σ ε ω)

/-! ## Runs -/

/-- The events of the trace, in order, lead from the initial state to the state, with
the recorded answers. -/
inductive Run : List (ε × ω) → σ → Prop
  | nil : Run [] M.init
  | snoc {tr : List (ε × ω)} {s s' : σ} {e : ε} {o : ω} :
      Run tr s → M.step s e = some (s', o) → Run (tr ++ [(e, o)]) s'

/-- Replay events from `s`, recording their answers, as long as each can happen. -/
def exec (s : σ) : List ε → Option (σ × List (ε × ω))
  | [] => some (s, [])
  | e :: es =>
    match M.step s e with
    | none => none
    | some (s', o) => (exec s' es).map fun r => (r.1, (e, o) :: r.2)

variable {M}

theorem Run.exec {tr : List (ε × ω)} {s : σ} (h : M.Run tr s) :
    ∀ {es : List ε} {s' : σ} {tr' : List (ε × ω)}, M.exec s es = some (s', tr') →
      M.Run (tr ++ tr') s'
  | [], s', tr', he => by
    obtain ⟨rfl, rfl⟩ : s = s' ∧ [] = tr' := by simpa [Machine.exec] using he
    simpa using h
  | e :: es, s', tr', he => by
    cases hstep : M.step s e with
    | none => simp [Machine.exec, hstep] at he
    | some r =>
      obtain ⟨s₁, o⟩ := r
      obtain ⟨rest, hrest, rfl⟩ :
          ∃ rest, M.exec s₁ es = some (s', rest) ∧ (e, o) :: rest = tr' := by
        simpa [Machine.exec, hstep] using he
      simpa using (h.snoc hstep).exec hrest

/-- A replay records the events it was given. -/
theorem map_fst_exec : ∀ {es : List ε} {s : σ} {r : σ × List (ε × ω)},
    M.exec s es = some r → r.2.map Prod.fst = es
  | [], s, r, h => by
    obtain rfl : (s, []) = r := by simpa [Machine.exec] using h
    rfl
  | e :: es, s, r, h => by
    cases hstep : M.step s e with
    | none => simp [Machine.exec, hstep] at h
    | some t =>
      obtain ⟨rest, hrest, rfl⟩ : ∃ rest, M.exec t.1 es = some rest ∧
          (rest.1, (e, t.2) :: rest.2) = r := by simpa [Machine.exec, hstep] using h
      rw [List.map_cons, map_fst_exec hrest]

/-- A successful replay from the initial state is a run. -/
theorem run_of_exec {es : List ε} {r : σ × List (ε × ω)} (h : M.exec M.init es = some r) :
    M.Run r.2 r.1 :=
  Run.nil.exec h

/-- A replay that succeeds is a run to the state it ends in. -/
theorem run_of_isSome (M : Machine σ ε ω) (es : List ε) (h : (M.exec M.init es).isSome) :
    M.Run ((M.exec M.init es).get h).2 ((M.exec M.init es).get h).1 :=
  run_of_exec (Option.some_get h).symm

/-- A run goes on with a replay that succeeds. -/
theorem Run.exec_get {tr : List (ε × ω)} {s : σ} (h : M.Run tr s) (es : List ε)
    (hs : (M.exec s es).isSome) :
    M.Run (tr ++ ((M.exec s es).get hs).2) ((M.exec s es).get hs).1 :=
  h.exec (Option.some_get hs).symm

theorem Run.nil_inv {s : σ} (h : M.Run [] s) : s = M.init := by
  generalize htr : ([] : List (ε × ω)) = tr at h
  cases h with
  | nil => rfl
  | snoc _ _ => simp at htr

/-- The last step of a run. -/
theorem Run.snoc_inv {tr : List (ε × ω)} {e : ε} {o : ω} {s' : σ}
    (h : M.Run (tr ++ [(e, o)]) s') : ∃ s, M.Run tr s ∧ M.step s e = some (s', o) := by
  generalize htr : tr ++ [(e, o)] = tr' at h
  cases h with
  | nil => simp at htr
  | snoc h hstep =>
    obtain ⟨rfl, heq⟩ := List.append_inj' htr rfl
    obtain ⟨rfl, rfl⟩ : e = _ ∧ o = _ := by simpa using heq
    exact ⟨_, h, hstep⟩

/-- The trace fixes the state. -/
theorem Run.unique {tr : List (ε × ω)} {s s' : σ} (h : M.Run tr s) (h' : M.Run tr s') :
    s = s' := by
  induction h generalizing s' with
  | nil => exact h'.nil_inv.symm
  | snoc _ hstep ih =>
    obtain ⟨s₁, h₁, hstep₁⟩ := h'.snoc_inv
    obtain rfl := ih h₁
    exact (Prod.mk.inj (Option.some.inj (hstep.symm.trans hstep₁))).1

/-- A run passes a state after each part of its trace. -/
theorem Run.of_prefix {tr₁ tr : List (ε × ω)} {s : σ} (h : M.Run tr s) (hpre : tr₁ <+: tr) :
    ∃ s₁, M.Run tr₁ s₁ := by
  induction h with
  | nil =>
    obtain rfl := List.prefix_nil.1 hpre
    exact ⟨_, .nil⟩
  | snoc hr hs ih =>
    rcases List.prefix_concat_iff.1 hpre with rfl | hpre
    · exact ⟨_, hr.snoc hs⟩
    · exact ih hpre

/-! ## Invariants -/

/-- An invariant of the state holds in every state a run reaches. -/
theorem Run.invariant {I : σ → Prop} (hinit : I M.init)
    (hstep : ∀ s e s' o, I s → M.step s e = some (s', o) → I s') {tr : List (ε × ω)} {s : σ}
    (h : M.Run tr s) : I s := by
  induction h with
  | nil => exact hinit
  | snoc _ hs ih => exact hstep _ _ _ _ ih hs

/-- An invariant of the state and the trace that led to it. -/
theorem Run.invariant_trace {I : List (ε × ω) → σ → Prop} (hinit : I [] M.init)
    (hstep : ∀ tr s e s' o, M.Run tr s → I tr s → M.step s e = some (s', o) →
      I (tr ++ [(e, o)]) s') {tr : List (ε × ω)} {s : σ} (h : M.Run tr s) : I tr s := by
  induction h with
  | nil => exact hinit
  | snoc hr hs ih => exact hstep _ _ _ _ _ hr ih hs

/-- A fold of the trace that starts related to the initial state and stays related
across every step is related to every state reached. -/
theorem Run.fold {α : Type*} {R : σ → α → Prop} {update : α → ε × ω → α} {a : α}
    (hinit : R M.init a)
    (hstep : ∀ s e s' o a, R s a → M.step s e = some (s', o) → R s' (update a (e, o)))
    {tr : List (ε × ω)} {s : σ} (h : M.Run tr s) : R s (tr.foldl update a) := by
  induction h with
  | nil => exact hinit
  | snoc _ hs ih =>
    rw [List.foldl_append]
    exact hstep _ _ _ _ _ ih hs

/-! ## Conditions on the steps of a run -/

/-- `P` holds at every step of the run with trace `tr` : of the state before it, the
event, the answer and the state after it. -/
def Along (M : Machine σ ε ω) (P : σ → ε → ω → σ → Prop) (tr : List (ε × ω)) : Prop :=
  ∀ tr₁ s e o s', tr₁ ++ [(e, o)] <+: tr → M.Run tr₁ s → M.step s e = some (s', o) → P s e o s'

/-- `P` holds in every state the run with trace `tr` passes. -/
def Throughout (M : Machine σ ε ω) (P : σ → Prop) (tr : List (ε × ω)) : Prop :=
  ∀ tr₁ s, tr₁ <+: tr → M.Run tr₁ s → P s

theorem along_nil {P : σ → ε → ω → σ → Prop} : M.Along P [] := by
  intro tr₁ s e o s' hpre
  simp at hpre

/-- A condition holds along a longer run if it holds along the shorter one and at the
step added. -/
theorem along_snoc {P : σ → ε → ω → σ → Prop} {tr : List (ε × ω)} {s s' : σ} {e : ε} {o : ω}
    (h : M.Run tr s) (hstep : M.step s e = some (s', o)) :
    M.Along P (tr ++ [(e, o)]) ↔ M.Along P tr ∧ P s e o s' := by
  refine ⟨fun ha => ?_, ?_⟩
  · refine ⟨fun tr₁ s₁ e₁ o₁ s₁' hpre => ?_, ha tr s e o s' (List.prefix_refl _) h hstep⟩
    exact ha tr₁ s₁ e₁ o₁ s₁' (hpre.trans (List.prefix_append _ _))
  · rintro ⟨ha, hp⟩ tr₁ s₁ e₁ o₁ s₁' hpre hr hs
    rcases List.prefix_concat_iff.1 hpre with heq | hpre
    · obtain ⟨rfl, hlast⟩ := List.append_inj' heq rfl
      obtain ⟨rfl, rfl⟩ : e₁ = e ∧ o₁ = o := by simpa using hlast
      obtain rfl := h.unique hr
      obtain ⟨rfl, -⟩ := Prod.mk.inj (Option.some.inj (hstep.symm.trans hs))
      exact hp
    · exact ha tr₁ s₁ e₁ o₁ s₁' hpre hr hs

theorem Along.of_prefix {P : σ → ε → ω → σ → Prop} {tr₁ tr : List (ε × ω)} (hpre : tr₁ <+: tr)
    (h : M.Along P tr) : M.Along P tr₁ := fun tr₂ s e o s' hpre' =>
  h tr₂ s e o s' (hpre'.trans hpre)

/-- A condition that the further events meet in any state holds along the longer run. -/
theorem Along.append {P : σ → ε → ω → σ → Prop} {tr ws : List (ε × ω)} (h : M.Along P tr)
    (hws : ∀ x ∈ ws, ∀ s s', P s x.1 x.2 s') : M.Along P (tr ++ ws) := by
  intro tr₁ s e o s' hpre hr hs
  rcases List.prefix_or_prefix_of_prefix hpre (List.prefix_append tr ws) with hin | ⟨t, ht⟩
  · exact h tr₁ s e o s' hin hr hs
  · have hpre' : t <+: ws := by
      rw [← ht] at hpre
      exact (List.prefix_append_right_inj tr).1 hpre
    rcases List.eq_nil_or_concat t with rfl | ⟨t', x, rfl⟩
    · refine h tr₁ s e o s' ?_ hr hs
      rw [← ht, List.append_nil]
    · rw [List.concat_eq_append, ← List.append_assoc] at ht
      obtain ⟨-, hlast⟩ := List.append_inj' ht rfl
      obtain rfl := List.singleton_inj.1 hlast
      exact hws (e, o) (hpre'.subset (by simp)) s s'

theorem throughout_nil {P : σ → Prop} : M.Throughout P [] ↔ P M.init := by
  refine ⟨fun h => h [] _ (List.prefix_refl _) .nil, fun h tr₁ s hpre hr => ?_⟩
  obtain rfl := List.prefix_nil.1 hpre
  rw [hr.nil_inv]
  exact h

theorem throughout_snoc {P : σ → Prop} {tr : List (ε × ω)} {s s' : σ} {e : ε} {o : ω}
    (h : M.Run tr s) (hstep : M.step s e = some (s', o)) :
    M.Throughout P (tr ++ [(e, o)]) ↔ M.Throughout P tr ∧ P s' := by
  refine ⟨fun ht => ⟨fun tr₁ s₁ hpre => ht tr₁ s₁ (hpre.trans (List.prefix_append _ _)),
    ht _ _ (List.prefix_refl _) (h.snoc hstep)⟩, ?_⟩
  · rintro ⟨ht, hp⟩ tr₁ s₁ hpre hr
    rcases List.prefix_concat_iff.1 hpre with rfl | hpre
    · rw [hr.unique (h.snoc hstep)]
      exact hp
    · exact ht tr₁ s₁ hpre hr

/-- An invariant that a step keeps whenever it meets `P` holds at the end of every run
that meets `P` at each step. -/
theorem Along.invariant {I : σ → Prop} {P : σ → ε → ω → σ → Prop} (hinit : I M.init)
    (hstep : ∀ s e s' o, I s → M.step s e = some (s', o) → P s e o s' → I s')
    {tr : List (ε × ω)} {s : σ} (h : M.Run tr s) (hp : M.Along P tr) : I s := by
  induction h with
  | nil => exact hinit
  | snoc hr hs ih =>
    obtain ⟨hp, hlast⟩ := (along_snoc hr hs).1 hp
    exact hstep _ _ _ _ (ih hp) hs hlast

/-- Such an invariant holds in every state the run passes. -/
theorem Along.throughout {I : σ → Prop} {P : σ → ε → ω → σ → Prop} (hinit : I M.init)
    (hstep : ∀ s e s' o, I s → M.step s e = some (s', o) → P s e o s' → I s')
    {tr : List (ε × ω)} (hp : M.Along P tr) : M.Throughout I tr := fun _ _ hpre hr =>
  Along.invariant hinit hstep hr (hp.of_prefix hpre)

/-- Conditions that agree at every step after a run agree along every run. -/
theorem along_congr {P Q : σ → ε → ω → σ → Prop}
    (h : ∀ tr s e s' o, M.Run tr s → M.step s e = some (s', o) → (P s e o s' ↔ Q s e o s'))
    (tr : List (ε × ω)) : M.Along P tr ↔ M.Along Q tr := by
  refine ⟨fun ha tr₁ s e o s' hpre hr hs => ?_, fun ha tr₁ s e o s' hpre hr hs => ?_⟩
  · exact (h tr₁ s e s' o hr hs).1 (ha tr₁ s e o s' hpre hr hs)
  · exact (h tr₁ s e s' o hr hs).2 (ha tr₁ s e o s' hpre hr hs)

/-! ## Independent events -/

/-- Either order of the two events leads to the same state, with the same answers. -/
def Independent (M : Machine σ ε ω) (s : σ) (a b : ε) : Prop :=
  ∃ sa sb s' oa ob, M.step s a = some (sa, oa) ∧ M.step sa b = some (s', ob) ∧
    M.step s b = some (sb, ob) ∧ M.step sb a = some (s', oa)

end Machine
