import SpaceBattle.Lib.Machine

/-!
# Machines compared

`Bisimulation M N R` : the machines `M` and `N` take the same events and answer them alike
from states that `R` relates, so they have the same traces (`Bisimulation.exists_run_iff`).
Where every event can happen in `M`, one direction is enough (`Bisimulation.of_enabled`).

`Indistinguishable s s'` : no sequence of events tells the states apart by its answers. It is
a bisimulation itself (`Indistinguishable.step`), and a bisimulation carries it from one
machine to the other (`Bisimulation.indistinguishable_congr`).

`Refinement M N I f seen` : on states with the invariant `I`, an event of `M` is an event of `N`
along `f` if `seen` shows one, and leaves the state of `N` as it is otherwise, so what is seen
of a run is a run (`Refinement.run`). If every event of `N` can be brought about, every run of
`N` is what is seen of some run (`Refinement.exists_run`).

`Quiet M loud` : the events that are not loud leave every state of `M` as it is. They can be
struck out of a run (`Run.purge`), and the answers to the loud events depend on the loud
events alone (`Quiet.answers_eq`).
-/

namespace Machine

variable {σ τ ε ω : Type*} {M : Machine σ ε ω} {N : Machine τ ε ω}

/-! ## Bisimulations -/

/-- From related states the machines take the same events, to related states and with the
same answers. -/
structure Bisimulation (M : Machine σ ε ω) (N : Machine τ ε ω) (R : σ → τ → Prop) : Prop where
  init : R M.init N.init
  forth : ∀ {s t e s' o}, R s t → M.step s e = some (s', o) →
    ∃ t', N.step t e = some (t', o) ∧ R s' t'
  back : ∀ {s t e t' o}, R s t → N.step t e = some (t', o) →
    ∃ s', M.step s e = some (s', o) ∧ R s' t'

namespace Bisimulation

variable {R : σ → τ → Prop}

theorem symm (h : Bisimulation M N R) : Bisimulation N M fun t s => R s t :=
  ⟨h.init, h.back, h.forth⟩

/-- A machine where every event can happen is followed back as well. -/
theorem of_enabled (henabled : ∀ s e, ∃ s' o, M.step s e = some (s', o)) (hinit : R M.init N.init)
    (hforth : ∀ {s t e s' o}, R s t → M.step s e = some (s', o) →
      ∃ t', N.step t e = some (t', o) ∧ R s' t') : Bisimulation M N R := by
  refine ⟨hinit, hforth, fun {s t e t' o} hs ht => ?_⟩
  obtain ⟨s', o', hs'⟩ := henabled s e
  obtain ⟨t₁, ht₁, hrel⟩ := hforth hs hs'
  obtain ⟨rfl, rfl⟩ := Prod.mk.inj (Option.some.inj (ht₁.symm.trans ht))
  exact ⟨s', hs', hrel⟩

/-- A map of the states that the steps commute with, on states with an invariant. -/
theorem of_map {I : σ → Prop} {f : σ → τ} (hI : I M.init) (hinit : f M.init = N.init)
    (hstep : ∀ {s}, I s → ∀ e, N.step (f s) e = (M.step s e).map fun r => (f r.1, r.2))
    (hinv : ∀ {s e s' o}, I s → M.step s e = some (s', o) → I s') :
    Bisimulation M N fun s t => I s ∧ f s = t where
  init := ⟨hI, hinit⟩
  forth := by
    rintro s t e s' o ⟨hs, rfl⟩ h
    exact ⟨f s', by rw [hstep hs, h]; rfl, hinv hs h, rfl⟩
  back := by
    rintro s t e t' o ⟨hs, rfl⟩ h
    obtain ⟨⟨s', o'⟩, hs', heq⟩ := Option.map_eq_some_iff.1 ((hstep hs e).symm.trans h)
    obtain ⟨rfl, rfl⟩ := Prod.mk.inj heq
    exact ⟨s', hs', hinv hs hs', rfl⟩

/-- A run of one machine is a run of the other. -/
theorem run (h : Bisimulation M N R) {tr : List (ε × ω)} {s : σ} (hs : M.Run tr s) :
    ∃ t, N.Run tr t ∧ R s t := by
  induction hs with
  | nil => exact ⟨_, .nil, h.init⟩
  | snoc _ hstep ih =>
    obtain ⟨t, ht, hrel⟩ := ih
    obtain ⟨t', hstep', hrel'⟩ := h.forth hrel hstep
    exact ⟨t', ht.snoc hstep', hrel'⟩

/-- The machines have the same traces. -/
theorem exists_run_iff (h : Bisimulation M N R) (tr : List (ε × ω)) :
    (∃ s, M.Run tr s) ↔ ∃ t, N.Run tr t := by
  refine ⟨fun ⟨s, hs⟩ => ?_, fun ⟨t, ht⟩ => ?_⟩
  · obtain ⟨t, ht, -⟩ := h.run hs
    exact ⟨t, ht⟩
  · obtain ⟨s, hs, -⟩ := h.symm.run ht
    exact ⟨s, hs⟩

end Bisimulation

/-! ## Indistinguishable states -/

/-- The same events are answered alike from the two states. -/
def Indistinguishable (M : Machine σ ε ω) (s s' : σ) : Prop :=
  ∀ es, (M.exec s es).map Prod.snd = (M.exec s' es).map Prod.snd

theorem Indistinguishable.symm {s s' : σ} (h : M.Indistinguishable s s') :
    M.Indistinguishable s' s := fun es => (h es).symm

/-- A step from one of two indistinguishable states is a step from the other. -/
theorem Indistinguishable.step {s s' t t' : σ} {e : ε} {o o' : ω} (h : M.Indistinguishable s s')
    (hs : M.step s e = some (t, o)) (hs' : M.step s' e = some (t', o')) :
    o = o' ∧ M.Indistinguishable t t' := by
  have hexec (es : List ε) : (M.exec t es).map (fun r => (e, o) :: r.2) =
      (M.exec t' es).map fun r => (e, o') :: r.2 := by
    simpa [exec, hs, hs', Option.map_map, Function.comp_def] using h (e :: es)
  have hanswer : o = o' := by simpa [exec] using hexec []
  subst hanswer
  refine ⟨rfl, fun es => Option.map_injective (List.cons_injective (a := (e, o))) ?_⟩
  simpa [Option.map_map, Function.comp_def] using hexec es

/-- Related states answer the same events alike. -/
theorem Bisimulation.exec_eq {R : σ → τ → Prop} (h : Bisimulation M N R) :
    ∀ (es : List ε) {s : σ} {t : τ}, R s t →
      (M.exec s es).map Prod.snd = (N.exec t es).map Prod.snd
  | [], _, _, _ => rfl
  | e :: es, s, t, hrel => by
    cases hs : M.step s e with
    | none =>
      cases ht : N.step t e with
      | none => simp [exec, hs, ht]
      | some r =>
        obtain ⟨s', hs', -⟩ := h.back hrel ht
        rw [hs] at hs'
        cases hs'
    | some r =>
      obtain ⟨t', ht, hrel'⟩ := h.forth hrel hs
      have hrest := congrArg (Option.map ((e, r.2) :: ·)) (h.exec_eq es hrel')
      simpa [exec, hs, ht, Option.map_map, Function.comp_def] using hrest

/-- What is indistinguishable in one machine is indistinguishable in the other. -/
theorem Bisimulation.indistinguishable_congr {R : σ → τ → Prop} (h : Bisimulation M N R)
    {s s' : σ} {t t' : τ} (hst : R s t) (hst' : R s' t') :
    M.Indistinguishable s s' ↔ N.Indistinguishable t t' :=
  forall_congr' fun es => by rw [h.exec_eq es hst, h.exec_eq es hst']

/-! ## Refinements -/

/-- What is seen of an event of `M` is an event of `N`, along the map of the states. -/
structure Refinement {ε' ω' : Type*} (M : Machine σ ε ω) (N : Machine τ ε' ω') (I : σ → Prop)
    (f : σ → τ) (seen : ε × ω → Option (ε' × ω')) : Prop where
  init : I M.init
  map_init : f M.init = N.init
  step : ∀ {tr s e s' o}, N.Run tr (f s) → I s → M.step s e = some (s', o) → I s' ∧
    (seen (e, o) = none → f s' = f s) ∧
    ∀ x, seen (e, o) = some x → N.step (f s) x.1 = some (f s', x.2)

namespace Refinement

variable {ε' ω' : Type*} {N : Machine τ ε' ω'} {I : σ → Prop} {f : σ → τ}
  {seen : ε × ω → Option (ε' × ω')}

/-- What is seen of a run is a run. -/
theorem run (h : Refinement M N I f seen) {tr : List (ε × ω)} {s : σ} (hs : M.Run tr s) :
    I s ∧ N.Run (tr.filterMap seen) (f s) := by
  induction hs with
  | nil => exact ⟨h.init, h.map_init ▸ .nil⟩
  | @snoc tr s s' e o _ hstep ih =>
    obtain ⟨hI, hrun⟩ := ih
    obtain ⟨hI', hnone, hsome⟩ := h.step hrun hI hstep
    refine ⟨hI', ?_⟩
    rw [List.filterMap_append]
    cases hseen : seen (e, o) with
    | none => simpa [hseen, hnone hseen] using hrun
    | some x => simpa [hseen] using hrun.snoc (hsome x hseen)

/-- If every event of `N` can be brought about from a state with the invariant `J`, every run
of `N` is what is seen of a run to such a state. -/
theorem exists_run (h : Refinement M N I f seen) {J : σ → Prop} (hinit : J M.init)
    (hback : ∀ {tr s e t o}, N.Run tr (f s) → I s → J s → N.step (f s) e = some (t, o) →
      ∃ es s' tr', M.exec s es = some (s', tr') ∧ tr'.filterMap seen = [(e, o)] ∧ f s' = t ∧ J s')
    {tr : List (ε' × ω')} {t : τ} (ht : N.Run tr t) :
    ∃ tr' s, M.Run tr' s ∧ tr'.filterMap seen = tr ∧ f s = t ∧ J s := by
  induction ht with
  | nil => exact ⟨[], _, .nil, rfl, h.map_init, hinit⟩
  | snoc _ hstep ih =>
    obtain ⟨tr', s, hs, rfl, rfl, hJ⟩ := ih
    obtain ⟨hI, hrun⟩ := h.run hs
    obtain ⟨es, s', rest, hexec, hrest, hmap, hJ'⟩ := hback hrun hI hJ hstep
    exact ⟨_, s', hs.exec hexec, by rw [List.filterMap_append, hrest], hmap, hJ'⟩

end Refinement

/-- While `P` holds some event can happen, and either `x` is seen of it and `Q` holds after it,
or nothing is and less is left; then `x` alone can be seen, with `Q` at the end. -/
theorem exists_exec_seen {δ : Type*} {seen : ε × ω → Option δ} {x : δ} {P Q : σ → Prop}
    (left : σ → ℕ) (hstep : ∀ s, P s → ∃ e s' o, M.step s e = some (s', o) ∧
      ((seen (e, o) = none ∧ P s' ∧ left s' < left s) ∨ (seen (e, o) = some x ∧ Q s')))
    (s : σ) (hs : P s) :
    ∃ es s' tr, M.exec s es = some (s', tr) ∧ tr.filterMap seen = [x] ∧ Q s' := by
  induction hleft : left s using Nat.strongRecOn generalizing s with
  | ind n ih =>
    subst hleft
    obtain ⟨e, s₁, o, hfirst, ⟨hnone, hs₁, hlt⟩ | ⟨hsome, hQ⟩⟩ := hstep s hs
    · obtain ⟨es, s', tr, hexec, hseen, hQ⟩ := ih _ hlt s₁ hs₁ rfl
      exact ⟨e :: es, s', (e, o) :: tr, by simp [exec, hfirst, hexec], by simp [hnone, hseen], hQ⟩
    · exact ⟨[e], s₁, [(e, o)], by simp [exec, hfirst], by simp [hsome], hQ⟩

/-! ## Quiet events -/

/-- An event that is not loud leaves every state as it is. -/
def Quiet (M : Machine σ ε ω) (loud : ε → Bool) : Prop :=
  ∀ s e s' o, loud e = false → M.step s e = some (s', o) → s' = s

/-- The trace with the loud events only. -/
def purge (loud : ε → Bool) (tr : List (ε × ω)) : List (ε × ω) :=
  tr.filter fun x => loud x.1

theorem purge_snoc (loud : ε → Bool) (tr : List (ε × ω)) (e : ε) (o : ω) :
    purge loud (tr ++ [(e, o)]) = purge loud tr ++ if loud e then [(e, o)] else [] := by
  cases hloud : loud e <;> simp [purge, List.filter_append, hloud]

/-- Quiet events can be struck out of a run. -/
theorem Run.purge {loud : ε → Bool} (hquiet : M.Quiet loud) {tr : List (ε × ω)} {s : σ}
    (h : M.Run tr s) : M.Run (Machine.purge loud tr) s := by
  induction h with
  | nil => exact .nil
  | @snoc tr s s' e o _ hstep ih =>
    rw [purge_snoc]
    cases hloud : loud e with
    | false =>
      rw [hquiet s e s' o hloud hstep]
      simpa using ih
    | true => simpa using ih.snoc hstep

/-- The events of a run fix its answers. -/
theorem Run.eq_of_events {tr tr' : List (ε × ω)} {s s' : σ} (h : M.Run tr s) (h' : M.Run tr' s')
    (hevents : tr.map Prod.fst = tr'.map Prod.fst) : tr = tr' := by
  induction h generalizing tr' s' with
  | nil => exact (List.map_eq_nil_iff.1 hevents.symm).symm
  | @snoc tr s s₁ e o hrun hstep ih =>
    rcases List.eq_nil_or_concat tr' with rfl | ⟨tr₁, ⟨e', o'⟩, rfl⟩
    · simp at hevents
    · rw [List.concat_eq_append] at h' hevents ⊢
      rw [List.map_append, List.map_append] at hevents
      obtain ⟨hbefore, hlast⟩ := List.append_inj' hevents rfl
      obtain rfl : e = e' := by simpa using hlast
      obtain ⟨s₂, hrun', hstep'⟩ := h'.snoc_inv
      obtain rfl := ih hrun' hbefore
      obtain rfl := hrun.unique hrun'
      obtain ⟨-, rfl⟩ := Prod.mk.inj (Option.some.inj (hstep.symm.trans hstep'))
      rfl

/-- Two runs with the same loud events give them the same answers. -/
theorem Quiet.answers_eq {loud : ε → Bool} (hquiet : M.Quiet loud) {tr tr' : List (ε × ω)}
    {s s' : σ} (h : M.Run tr s) (h' : M.Run tr' s')
    (hloud : (purge loud tr).map Prod.fst = (purge loud tr').map Prod.fst) :
    purge loud tr = purge loud tr' :=
  (h.purge hquiet).eq_of_events (h'.purge hquiet) hloud

end Machine
