import SpaceBattle.Lib.Machine

/-!
# One register for all outstanding writes

A writer keeps the message of its last write only. Its writes complete in the order they
were started, and the handler of a completion is given the message kept, whichever write
has completed.

`ReportsOwn` : the `k`-th completion is given the message of the `k`-th write.
`alwaysReportsOwn_iff` : the completions of a run, however the outstanding writes complete,
report their own messages if and only if no write finds another message outstanding.
-/

namespace LastWrite

variable {μ ι κ : Type*}

/-- A write of a message, and the completion of the oldest outstanding write with an
outcome. -/
inductive Event (μ ι : Type*)
  | write (message : μ)
  | complete (outcome : ι)

/-- The message kept, and those of the outstanding writes in the order they were started. -/
structure Writer (μ : Type*) where
  current : μ
  outstanding : List μ

/-- What a completion calls, by its outcome and the message kept. A call has no message or
the one it was given, and on success it has one. -/
structure Handler (μ ι κ : Type*) where
  call : ι → μ → κ
  message : κ → Option μ
  message_call : ∀ {outcome m m'}, message (call outcome m) = some m' → m = m'
  success : ι
  message_success : ∀ m, message (call success m) = some m

variable (handler : Handler μ ι κ)

def step (s : Writer μ) : Event μ ι → Option (Writer μ × Option κ)
  | .write message => some (⟨message, s.outstanding ++ [message]⟩, none)
  | .complete outcome =>
    match s.outstanding with
    | [] => none
    | _ :: rest => some (⟨s.current, rest⟩, some (handler.call outcome s.current))

/-- A writer that starts with the message `init` and no outstanding write. -/
def machine (init : μ) : Machine (Writer μ) (Event μ ι) (Option κ) :=
  ⟨⟨init, []⟩, step handler⟩

/-! ## What a run says -/

/-- The messages written, in order. -/
def written (tr : List (Event μ ι × Option κ)) : List μ :=
  tr.filterMap fun x =>
    match x.1 with
    | .write message => some message
    | .complete _ => none

/-- The calls of the completions, in order. -/
def calls (tr : List (Event μ ι × Option κ)) : List κ :=
  tr.filterMap Prod.snd

/-- Each completion whose call has a message is given the message of its own write. -/
def ReportsOwn (tr : List (Event μ ι × Option κ)) : Prop :=
  ∀ (k : ℕ) (call : κ) (m : μ), (calls tr)[k]? = some call → handler.message call = some m →
    (written tr)[k]? = some m

/-- The events are completions. -/
def Completions (ws : List (Event μ ι × Option κ)) : Prop :=
  ∀ x ∈ ws, ∃ outcome, x.1 = .complete outcome

/-- At every moment of the run, and however the outstanding writes complete from there, the
completions are given their own messages. -/
def AlwaysReportsOwn (init : μ) (tr : List (Event μ ι × Option κ)) : Prop :=
  ∀ tr₁ ws s, tr₁ <+: tr → Completions ws → (machine handler init).Run (tr₁ ++ ws) s →
    ReportsOwn handler (tr₁ ++ ws)

/-- A write finds no other message outstanding. -/
def SameAgain (s : Writer μ) (e : Event μ ι) (_ : Option κ) (_ : Writer μ) : Prop :=
  ∀ m, e = .write m → ∀ m' ∈ s.outstanding, m' = m

/-- The outstanding writes are all of the message kept. -/
def OnlyCurrent (s : Writer μ) : Prop :=
  ∀ m ∈ s.outstanding, m = s.current

@[simp] theorem written_append (tr ws : List (Event μ ι × Option κ)) :
    written (tr ++ ws) = written tr ++ written ws :=
  List.filterMap_append

@[simp] theorem calls_append (tr ws : List (Event μ ι × Option κ)) :
    calls (tr ++ ws) = calls tr ++ calls ws :=
  List.filterMap_append

@[simp] theorem written_write (m : μ) (o : Option κ) :
    written [((.write m : Event μ ι), o)] = [m] :=
  rfl

@[simp] theorem written_complete (outcome : ι) (o : Option κ) :
    written [((.complete outcome : Event μ ι), o)] = [] :=
  rfl

@[simp] theorem calls_none (e : Event μ ι) : calls [(e, (none : Option κ))] = [] :=
  rfl

@[simp] theorem calls_some (e : Event μ ι) (call : κ) : calls [(e, some call)] = [call] :=
  rfl

variable {handler} {init : μ} {s s' : Writer μ} {tr : List (Event μ ι × Option κ)}

theorem step_cases {e : Event μ ι} {o : Option κ} (h : step handler s e = some (s', o)) :
    (∃ m, e = .write m ∧ s' = ⟨m, s.outstanding ++ [m]⟩ ∧ o = none) ∨
      ∃ outcome m rest, e = .complete outcome ∧ s.outstanding = m :: rest ∧
        s' = ⟨s.current, rest⟩ ∧ o = some (handler.call outcome s.current) := by
  cases e with
  | write m =>
    obtain ⟨rfl, rfl⟩ := Prod.mk.inj (Option.some.inj h)
    exact Or.inl ⟨m, rfl, rfl, rfl⟩
  | complete outcome =>
    cases hout : s.outstanding with
    | nil => simp [step, hout] at h
    | cons m rest =>
      simp only [step, hout] at h
      obtain ⟨rfl, rfl⟩ := Prod.mk.inj (Option.some.inj h)
      exact Or.inr ⟨outcome, m, rest, rfl, rfl, rfl, rfl⟩

/-- What was written has completed, one write for each call, or is outstanding. -/
theorem Run.written_eq (h : (machine handler init).Run tr s) :
    ∃ done, written tr = done ++ s.outstanding ∧ done.length = (calls tr).length := by
  induction h with
  | nil => exact ⟨[], rfl, rfl⟩
  | @snoc tr s _ _ _ _ hstep ih =>
    obtain ⟨done, hwritten, hlength⟩ := ih
    rcases step_cases hstep with ⟨m, rfl, rfl, rfl⟩ | ⟨outcome, m, rest, rfl, hout, rfl, rfl⟩
    · exact ⟨done, by simp [hwritten], by simpa using hlength⟩
    · exact ⟨done ++ [m], by simp [hwritten, hout], by simp [hlength]⟩

/-! ## Steps -/

theorem reportsOwn_nil : ReportsOwn handler [] := by
  intro k call m hcall
  simp [calls] at hcall

/-- A write changes nothing about the completions before it. -/
theorem reportsOwn_write_iff (h : (machine handler init).Run tr s) (m : μ) :
    ReportsOwn handler (tr ++ [(.write m, none)]) ↔ ReportsOwn handler tr := by
  obtain ⟨done, hwritten, hlength⟩ := Run.written_eq h
  simp only [ReportsOwn, calls_append, calls_none, List.append_nil, written_append, written_write]
  refine forall_congr' fun k => forall_congr' fun call => forall_congr' fun m' =>
    imp_congr_right fun hcall => ?_
  have hk : k < (calls tr).length := (List.getElem?_eq_some_iff.1 hcall).1
  rw [List.getElem?_append_left (by rw [hwritten, List.length_append]; omega)]

/-- A completion reports the message kept, which is right if its write was of that one. -/
theorem reportsOwn_complete_iff (h : (machine handler init).Run tr s) {m : μ} {rest : List μ}
    (hout : s.outstanding = m :: rest) (outcome : ι) (call : κ) :
    ReportsOwn handler (tr ++ [(.complete outcome, some call)]) ↔
      ReportsOwn handler tr ∧ ∀ m', handler.message call = some m' → m = m' := by
  obtain ⟨done, hwritten, hlength⟩ := Run.written_eq h
  have hlast : (written tr)[(calls tr).length]? = some m := by
    rw [hwritten, hout, ← hlength, List.getElem?_append_right le_rfl, Nat.sub_self]
    rfl
  simp only [ReportsOwn, calls_append, calls_some, written_append, written_complete,
    List.append_nil]
  constructor
  · intro hown
    refine ⟨fun k call' m' hcall => ?_, fun m' hmessage => ?_⟩
    · have hk : k < (calls tr).length := (List.getElem?_eq_some_iff.1 hcall).1
      exact hown k call' m' (by rwa [List.getElem?_append_left hk])
    · have hsome := hown (calls tr).length call m' (by simp) hmessage
      exact Option.some.inj (hlast.symm.trans hsome)
  · rintro ⟨hown, hnew⟩ k call' m' hcall hmessage
    rcases Nat.lt_or_ge k (calls tr).length with hk | hk
    · rw [List.getElem?_append_left hk] at hcall
      exact hown k call' m' hcall hmessage
    · have hsingle : k = (calls tr).length ∧ call = call' := by
        rw [List.getElem?_append_right hk, List.getElem?_singleton] at hcall
        split at hcall
        · exact ⟨by omega, Option.some.inj hcall⟩
        · cases hcall
      obtain ⟨rfl, rfl⟩ := hsingle
      rw [hlast, hnew m' hmessage]

/-! ## Runs -/

/-- Writes that find no other message outstanding leave none. -/
theorem onlyCurrent_of_along (h : (machine handler init).Run tr s)
    (hsame : (machine handler init).Along SameAgain tr) : OnlyCurrent s := by
  refine Machine.Along.invariant (I := OnlyCurrent) (P := SameAgain) ?_ ?_ h hsame
  · intro m hm
    simp [machine] at hm
  · intro s e s' o hcurrent hstep hwrite
    rcases step_cases hstep with ⟨m, rfl, rfl, rfl⟩ | ⟨outcome, m, rest, rfl, hout, rfl, rfl⟩
    · intro m' hm'
      rcases List.mem_append.1 hm' with hm' | hm'
      · exact hwrite m rfl m' hm'
      · exact List.mem_singleton.1 hm'
    · intro m' hm'
      exact hcurrent m' (hout ▸ List.mem_cons_of_mem m hm')

/-- The completions of such a run report their own messages. -/
theorem reportsOwn_of_along (h : (machine handler init).Run tr s)
    (hsame : (machine handler init).Along SameAgain tr) : ReportsOwn handler tr := by
  induction h with
  | nil => exact reportsOwn_nil
  | snoc hrun hstep ih =>
    have hbefore := ((Machine.along_snoc hrun hstep).1 hsame).1
    have hown := ih hbefore
    rcases step_cases hstep with ⟨m, rfl, rfl, rfl⟩ | ⟨outcome, m, rest, rfl, hout, rfl, rfl⟩
    · exact (reportsOwn_write_iff hrun m).2 hown
    · refine (reportsOwn_complete_iff hrun hout outcome _).2 ⟨hown, fun m' hmessage => ?_⟩
      have hcurrent := onlyCurrent_of_along hrun hbefore m (by simp [hout])
      exact hcurrent.trans (handler.message_call hmessage)

/-- If the outstanding writes report their own messages when they all succeed, they are of
the message kept. -/
theorem onlyCurrent_of_reportsOwn (h : (machine handler init).Run tr s)
    (hown : ∀ ws s', Completions ws → (machine handler init).Run (tr ++ ws) s' →
      ReportsOwn handler (tr ++ ws)) : OnlyCurrent s := by
  obtain ⟨current, outstanding⟩ := s
  induction outstanding generalizing tr with
  | nil =>
    intro m hm
    simp at hm
  | cons m rest ih =>
    have hnext : (machine handler init).Run
        (tr ++ [(.complete handler.success, some (handler.call handler.success current))])
        ⟨current, rest⟩ := h.snoc rfl
    have hfirst := hown [_] _ (by simp [Completions]) hnext
    have hm := ((reportsOwn_complete_iff h rfl handler.success _).1 hfirst).2 current
      (handler.message_success current)
    have hrest : OnlyCurrent ⟨current, rest⟩ := by
      refine ih (fun ws s' hws hrun => ?_) hnext
      rw [List.append_assoc] at hrun ⊢
      refine hown _ s' ?_ hrun
      rintro x (_ | ⟨_, hx⟩)
      · exact ⟨handler.success, rfl⟩
      · exact hws x hx
    rintro m' (_ | ⟨_, hm'⟩)
    · exact hm
    · exact hrest m' hm'

/-- The completions of a run report their own messages, however the outstanding writes
complete, if and only if no write finds another message outstanding. -/
theorem alwaysReportsOwn_iff (tr : List (Event μ ι × Option κ)) :
    AlwaysReportsOwn handler init tr ↔ (machine handler init).Along SameAgain tr := by
  constructor
  · intro halways tr₁ s e o s' hpre hrun hstep m he m' hm'
    subst he
    have hcurrent := onlyCurrent_of_reportsOwn (hrun.snoc hstep) fun ws s₁ hws =>
      halways _ ws s₁ hpre hws
    obtain ⟨rfl, -⟩ := Prod.mk.inj (Option.some.inj hstep)
    exact hcurrent m' (List.mem_append_left _ hm')
  · intro hsame tr₁ ws s hpre hws hrun
    refine reportsOwn_of_along hrun ((hsame.of_prefix hpre).append fun x hx s s' m he => ?_)
    obtain ⟨outcome, hcomplete⟩ := hws x hx
    rw [hcomplete] at he
    cases he

end LastWrite
