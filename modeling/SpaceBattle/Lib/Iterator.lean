import Mathlib.Data.List.Nodup

/-!
# Iterators

A valid iterator into a vector is the elements before it, its own and those after it.
`findIf` is the search for the first element with a property; the vector is taken apart
there (`findIf_spec`). If the property singles out one element, writing through
the iterator changes that element and no other (`toVector_assign`).
-/

namespace Cpp

/-- A valid iterator into the vector `before ++ value :: after`. -/
structure Iterator (α : Type*) where
  before : List α
  value : α
  after : List α

namespace Iterator

variable {α : Type*}

/-- The vector the iterator points into. -/
def toVector (it : Iterator α) : List α :=
  it.before ++ it.value :: it.after

/-- The iterator after `*it = x`. -/
def assign (it : Iterator α) (x : α) : Iterator α :=
  { it with value := x }

@[simp] theorem value_assign (it : Iterator α) (x : α) : (it.assign x).value = x :=
  rfl

theorem mem_toVector {it : Iterator α} {x : α} :
    x ∈ it.toVector ↔ x ∈ it.before ∨ x = it.value ∨ x ∈ it.after := by
  simp [toVector]

theorem value_mem (it : Iterator α) : it.value ∈ it.toVector :=
  mem_toVector.2 (Or.inr (Or.inl rfl))

end Iterator

variable {α : Type*}

/-- `std::find_if`, `none` for the end iterator. -/
def findIf (p : α → Bool) : List α → Option (Iterator α)
  | [] => none
  | x :: xs =>
    if p x then some ⟨[], x, xs⟩
    else (findIf p xs).map fun it => { it with before := x :: it.before }

theorem findIf_eq_none_iff {p : α → Bool} : ∀ {xs : List α},
    findIf p xs = none ↔ ∀ x ∈ xs, p x = false
  | [] => by simp [findIf]
  | x :: xs => by
    have ih : findIf p xs = none ↔ ∀ x ∈ xs, p x = false := findIf_eq_none_iff
    cases hx : p x with
    | true => simp [findIf, hx]
    | false => simp [findIf, hx, ih]

/-- The search stops at the first element with the property. -/
theorem findIf_spec {p : α → Bool} : ∀ {xs : List α} {it : Iterator α},
    findIf p xs = some it → it.toVector = xs ∧ p it.value ∧ ∀ x ∈ it.before, p x = false
  | [], it, h => by simp [findIf] at h
  | x :: xs, it, h => by
    cases hx : p x with
    | true =>
      obtain rfl : ⟨[], x, xs⟩ = it := by simpa [findIf, hx] using h
      exact ⟨rfl, hx, by simp⟩
    | false =>
      obtain ⟨it, hit, rfl⟩ : ∃ it', findIf p xs = some it' ∧
          { it' with before := x :: it'.before } = it := by simpa [findIf, hx] using h
      obtain ⟨rfl, hv, hbefore⟩ := findIf_spec hit
      exact ⟨rfl, hv, by simpa [hx] using hbefore⟩

theorem findIf_isSome_iff {p : α → Bool} {xs : List α} :
    (findIf p xs).isSome ↔ ∃ x ∈ xs, p x := by
  rw [← not_iff_not, Bool.not_eq_true, Option.isSome_eq_false_iff, Option.isNone_iff_eq_none,
    findIf_eq_none_iff]
  simp

/-- The element the search stops at. -/
theorem map_value_findIf (p : α → Bool) : ∀ xs : List α, (findIf p xs).map (·.value) = xs.find? p
  | [] => rfl
  | x :: xs => by
    have ih := map_value_findIf p xs
    cases hx : p x with
    | true => simp [findIf, hx]
    | false =>
      rw [List.find?_cons_of_neg (by simp [hx]), ← ih]
      simp [findIf, hx, Function.comp_def]

/-- Writing through the iterator to the only element with a key changes that element. -/
theorem toVector_assign {β : Type*} [DecidableEq β] {key : α → β} {k : β} {xs : List α}
    {it : Iterator α} (hkeys : (xs.map key).Nodup)
    (h : findIf (fun x => key x = k) xs = some it) (f : α → α) :
    (it.assign (f it.value)).toVector = xs.map fun x => if key x = k then f x else x := by
  obtain ⟨rfl, hvalue, hbefore⟩ := findIf_spec h
  have hk : key it.value = k := by simpa using hvalue
  have hsame : ∀ ys : List α, (∀ y ∈ ys, key y ≠ k) →
      (ys.map fun x => if key x = k then f x else x) = ys := fun ys hys =>
    (List.map_congr_left fun y hy => if_neg (hys y hy)).trans (List.map_id' ys)
  have hafter : ∀ y ∈ it.after, key y ≠ k := by
    simp only [Iterator.toVector, List.map_append, List.map_cons, List.nodup_append,
      List.nodup_cons] at hkeys
    exact fun y hy heq => hkeys.2.1.1 (List.mem_map.2 ⟨y, hy, heq.trans hk.symm⟩)
  simp [Iterator.toVector, Iterator.assign, hk, hsame it.before (by simpa using hbefore),
    hsame it.after hafter]

end Cpp
