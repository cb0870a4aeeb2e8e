import Mathlib.Data.List.Infix

/-!
# Asynchronous writes

A socket with its outstanding writes : `asyncWrite` starts a write, and `progress k n`
puts the next `n` elements of the `k`-th outstanding write on the wire. Writes that are
outstanding together progress in any order.

`InOrder` : at most one write is outstanding, and the wire with its rest is what was
written. Progress keeps it, and so does a write started when none is outstanding. A write
started while one is outstanding puts the order into the hands of the schedule
(`InOrder.overlap`) : if its first two elements differ, two partial writes suffice for a
wire that is no prefix of what was written.
-/

namespace AsyncWrite

variable {β : Type*}

/-- The elements on the wire, and the rests of the outstanding writes in the order they
were started. -/
structure Socket (β : Type*) where
  wire : List β
  outstanding : List (List β)
  deriving DecidableEq

namespace Socket

def new : Socket β :=
  ⟨[], []⟩

/-- Start to write the buffer. -/
def asyncWrite (s : Socket β) (buffer : List β) : Socket β :=
  { s with outstanding := s.outstanding ++ [buffer] }

/-- A partial write : `n` elements of the `k`-th outstanding write, which is complete when
none is left. -/
def progress (s : Socket β) (k n : ℕ) : Option (Socket β) :=
  match s.outstanding[k]? with
  | none => none
  | some w =>
    if w.length < n then none
    else some ⟨s.wire ++ w.take n,
      if n = w.length then s.outstanding.eraseIdx k else s.outstanding.set k (w.drop n)⟩

/-- A partial write of a write that has `n` elements left is possible. It leaves the writes
before it as they are. -/
theorem exists_progress {s : Socket β} {k n : ℕ} {w : List β} (hw : s.outstanding[k]? = some w)
    (hn : n ≤ w.length) : ∃ s', s.progress k n = some s' ∧ s'.wire = s.wire ++ w.take n ∧
      ∀ i < k, s'.outstanding[i]? = s.outstanding[i]? := by
  refine ⟨_, by rw [progress, hw]; exact if_neg (by omega), rfl, fun i hi => ?_⟩
  dsimp only
  split
  · exact List.getElem?_eraseIdx_of_lt hi
  · exact List.getElem?_set_ne (by omega)

/-- At most one write is outstanding, not complete, and its rest is what the wire lacks of
`written`. -/
structure InOrder (s : Socket β) (written : List β) : Prop where
  single : s.outstanding.length ≤ 1
  rest : s.wire ++ s.outstanding.flatten = written
  unfinished : [] ∉ s.outstanding

theorem inOrder_new : (new : Socket β).InOrder [] :=
  ⟨by simp [new], by simp [new], by simp [new]⟩

variable {s s' : Socket β} {written : List β}

theorem InOrder.wire_prefix_written (h : s.InOrder written) : s.wire <+: written :=
  ⟨_, h.rest⟩

/-- The one write that is outstanding, if any is. -/
theorem InOrder.eq_singleton (h : s.InOrder written) (hne : s.outstanding ≠ []) :
    ∃ w, s.outstanding = [w] ∧ w ≠ [] ∧ s.wire ++ w = written := by
  obtain ⟨w, hw⟩ : ∃ w, s.outstanding = [w] := by
    refine List.length_eq_one_iff.1 ?_
    have hpos := List.length_pos_iff.2 hne
    have hle := h.single
    omega
  refine ⟨w, hw, fun hnil => h.unfinished (by simp [hw, hnil]), ?_⟩
  simpa [hw] using h.rest

/-- A partial write keeps the order. -/
theorem InOrder.progress (h : s.InOrder written) {k n : ℕ} (hp : s.progress k n = some s') :
    s'.InOrder written := by
  have hne : s.outstanding ≠ [] := by
    intro hnil
    simp [Socket.progress, hnil] at hp
  obtain ⟨w, hw, -, rfl⟩ := h.eq_singleton hne
  cases k with
  | succ k => simp [Socket.progress, hw] at hp
  | zero =>
    simp only [Socket.progress, hw, List.getElem?_cons_zero, Option.ite_none_left_eq_some,
      Option.some.injEq] at hp
    obtain ⟨hle, rfl⟩ := hp
    rcases Nat.lt_or_ge n w.length with hlt | hge
    · rw [if_neg (by omega)]
      exact ⟨by simp, by simp, by simpa using hlt⟩
    · obtain rfl : n = w.length := by omega
      rw [if_pos rfl]
      exact ⟨by simp, by simp, by simp⟩

/-- A write started when none is outstanding comes next. -/
theorem InOrder.asyncWrite (h : s.InOrder written) (hnone : s.outstanding = []) {buffer : List β}
    (hbuffer : buffer ≠ []) : (s.asyncWrite buffer).InOrder (written ++ buffer) := by
  have hwire : s.wire = written := by simpa [hnone] using h.rest
  refine ⟨by simp [Socket.asyncWrite, hnone], by simp [Socket.asyncWrite, hnone, hwire], ?_⟩
  simpa [Socket.asyncWrite, hnone] using hbuffer.symm

/-- One element and two elements of a list put ahead of another cannot both read like the
other followed by the list, unless the two elements are equal. -/
theorem not_both_ahead {w : List β} {a b : β} (hw : w ≠ []) (hab : a ≠ b) (rest : List β) :
    ¬([a] ++ w <+: w ++ a :: b :: rest ∧ [a, b] ++ w <+: w ++ a :: b :: rest) := by
  rintro ⟨hone, htwo⟩
  obtain ⟨x, v, rfl⟩ := List.exists_cons_of_ne_nil hw
  simp only [List.cons_append, List.nil_append, List.cons_prefix_cons] at hone htwo
  obtain ⟨rfl, hone⟩ := hone
  obtain ⟨-, htwo⟩ := htwo
  -- both tails are prefixes of one list, so they begin alike
  rcases List.prefix_or_prefix_of_prefix hone htwo with h | h
  · exact hab (List.cons_prefix_cons.1 h).1
  · exact hab (List.cons_prefix_cons.1 h).1.symm

/-- While a write is outstanding, another one may overtake it. -/
theorem InOrder.overlap (h : s.InOrder written) (hne : s.outstanding ≠ []) {a b : β}
    (hab : a ≠ b) (rest : List β) : ∃ n m s₁ s₂,
      (s.asyncWrite (a :: b :: rest)).progress 1 n = some s₁ ∧ s₁.progress 0 m = some s₂ ∧
        ¬s₂.wire <+: written ++ a :: b :: rest := by
  obtain ⟨w, hw, hwne, rfl⟩ := h.eq_singleton hne
  have hahead : ∀ n ≤ (a :: b :: rest).length, ∃ s₁ s₂,
      (s.asyncWrite (a :: b :: rest)).progress 1 n = some s₁ ∧
        s₁.progress 0 w.length = some s₂ ∧ s₂.wire = s.wire ++ ((a :: b :: rest).take n ++ w) := by
    intro n hn
    obtain ⟨s₁, h₁, hwire₁, hkeep⟩ := exists_progress (s := s.asyncWrite (a :: b :: rest))
      (k := 1) (by simp [Socket.asyncWrite, hw]) hn
    have hfirst : s₁.outstanding[0]? = some w := by
      rw [hkeep 0 Nat.one_pos]
      simp [Socket.asyncWrite, hw]
    obtain ⟨s₂, h₂, hwire₂, -⟩ := exists_progress hfirst le_rfl
    refine ⟨s₁, s₂, h₁, h₂, ?_⟩
    rw [hwire₂, hwire₁, List.take_length, List.append_assoc]
    rfl
  obtain ⟨s₁, s₂, h₁, h₂, hone⟩ := hahead 1 (by simp)
  obtain ⟨t₁, t₂, ht₁, ht₂, htwo⟩ := hahead 2 (by simp)
  rcases not_and_or.1 (not_both_ahead hwne hab rest) with hno | hno
  · refine ⟨1, _, s₁, s₂, h₁, h₂, fun hpre => hno ?_⟩
    rw [hone, List.append_assoc] at hpre
    simpa using hpre
  · refine ⟨2, _, t₁, t₂, ht₁, ht₂, fun hpre => hno ?_⟩
    rw [htwo, List.append_assoc] at hpre
    simpa using hpre

end Socket

end AsyncWrite
