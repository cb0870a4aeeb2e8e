import Mathlib.Data.List.Basic

/-!
# Writing into a buffer

A writer is the list of its assignments `dest[i] = x`, in order. `copy` is the
assignments of a contiguous write, `offset` the same assignments at a later address, and
`store` the buffer after them. `store_copy` : a contiguous write of as many elements as
the buffer has leaves exactly those elements, whatever the buffer held. `Fills` : every
index of the buffer is assigned once.
-/

namespace Buffer

variable {α : Type*}

/-- The assignments that put `xs` at index `i` and on. -/
def copy : ℕ → List α → List (ℕ × α)
  | _, [] => []
  | i, x :: xs => (i, x) :: copy (i + 1) xs

/-- The same assignments, `k` further on. -/
def offset (k : ℕ) (ws : List (ℕ × α)) : List (ℕ × α) :=
  ws.map fun w => (k + w.1, w.2)

/-- The buffer after the assignments. -/
def store (buf : List α) (ws : List (ℕ × α)) : List α :=
  ws.foldl (fun b w => b.set w.1 w.2) buf

@[simp] theorem copy_nil (i : ℕ) : copy i ([] : List α) = [] :=
  rfl

@[simp] theorem length_store (buf : List α) : ∀ ws : List (ℕ × α),
    (store buf ws).length = buf.length
  | [] => rfl
  | w :: ws => (length_store (buf.set w.1 w.2) ws).trans List.length_set

theorem copy_append : ∀ (i : ℕ) (xs ys : List α),
    copy i (xs ++ ys) = copy i xs ++ copy (i + xs.length) ys
  | i, [], ys => by simp
  | i, x :: xs, ys => by
    rw [List.cons_append, copy, copy_append (i + 1) xs ys, copy, List.length_cons,
      List.cons_append]
    congr 3
    omega

@[simp] theorem map_snd_copy : ∀ (i : ℕ) (xs : List α), (copy i xs).map Prod.snd = xs
  | _, [] => rfl
  | i, x :: xs => congrArg (x :: ·) (map_snd_copy (i + 1) xs)

@[simp] theorem map_fst_copy : ∀ (i : ℕ) (xs : List α),
    (copy i xs).map Prod.fst = List.range' i xs.length
  | _, [] => rfl
  | i, _ :: xs => congrArg (i :: ·) (map_fst_copy (i + 1) xs)

@[simp] theorem length_copy (i : ℕ) (xs : List α) : (copy i xs).length = xs.length := by
  rw [← List.length_map (f := Prod.snd), map_snd_copy]

@[simp] theorem length_offset (k : ℕ) (ws : List (ℕ × α)) : (offset k ws).length = ws.length :=
  List.length_map _

/-- A contiguous write tells what it writes. -/
theorem copy_inj {i : ℕ} {xs ys : List α} (h : copy i xs = copy i ys) : xs = ys := by
  simpa using congrArg (List.map Prod.snd) h

theorem offset_copy (k : ℕ) : ∀ (i : ℕ) (xs : List α), offset k (copy i xs) = copy (k + i) xs
  | _, [] => rfl
  | i, x :: xs => by
    have ih := offset_copy k (i + 1) xs
    simp only [offset] at ih
    simp only [offset, copy, List.map_cons, ih]
    rfl

/-- Each index below `n` is assigned exactly once, and no other index is. -/
def Fills (n : ℕ) (ws : List (ℕ × α)) : Prop :=
  (ws.map Prod.fst).Perm (List.range n)

theorem fills_copy (xs : List α) : Fills xs.length (copy 0 xs) := by
  rw [Fills, map_fst_copy, List.range_eq_range']

/-- There are as many assignments as there are indices to fill. -/
theorem Fills.length_eq {n : ℕ} {ws : List (ℕ × α)} (h : Fills n ws) : ws.length = n := by
  simpa using List.Perm.length_eq h

/-- A contiguous write leaves what stands behind it. -/
theorem store_copy_within : ∀ (xs pre mid post : List α), mid.length = xs.length →
    store (pre ++ (mid ++ post)) (copy pre.length xs) = pre ++ (xs ++ post)
  | [], pre, mid, post, h => by
    obtain rfl := List.length_eq_zero_iff.1 h
    rfl
  | x :: xs, pre, [], post, h => by simp at h
  | x :: xs, pre, y :: mid, post, h => by
    have ih := store_copy_within xs (pre ++ [x]) mid post (by simpa using h)
    simp only [List.length_append, List.length_singleton, List.append_assoc,
      List.singleton_append] at ih
    rw [copy, store, List.foldl_cons]
    simpa [store] using ih

theorem store_copy_append (xs pre mid : List α) (h : mid.length = xs.length) :
    store (pre ++ mid) (copy pre.length xs) = pre ++ xs := by
  simpa using store_copy_within xs pre mid [] h

/-- A contiguous write replaces what stands where it writes. -/
theorem store_copy_of_le {buf xs : List α} {k : ℕ} (h : k + xs.length ≤ buf.length) :
    store buf (copy k xs) = buf.take k ++ (xs ++ buf.drop (k + xs.length)) := by
  have hwithin := store_copy_within xs (buf.take k) ((buf.drop k).take xs.length)
    (buf.drop (k + xs.length)) (by rw [List.length_take, List.length_drop]; omega)
  rwa [← List.drop_drop, List.take_append_drop, List.take_append_drop, List.length_take,
    Nat.min_eq_left (by omega), List.drop_drop] at hwithin

/-- What stands before a contiguous write, and what it writes. -/
theorem take_store_copy {buf xs : List α} {k : ℕ} (h : k + xs.length ≤ buf.length) :
    (store buf (copy k xs)).take k = buf.take k ∧
      (store buf (copy k xs)).take (k + xs.length) = buf.take k ++ xs := by
  have hk : (buf.take k).length = k := by
    rw [List.length_take]
    omega
  have hend : (buf.take k ++ xs).length = k + xs.length := by rw [List.length_append, hk]
  rw [store_copy_of_le h]
  refine ⟨List.take_left' hk, ?_⟩
  rw [← List.append_assoc]
  exact List.take_left' hend

/-- Two contiguous writes with a gap between them leave the gap as it was. -/
theorem store_copy_gap {buf xs ys : List α} {k : ℕ} (hxs : xs.length ≤ k)
    (hbuf : buf.length = k + ys.length) : ∃ gap, (xs ++ gap).length = k ∧
      store buf (copy 0 xs ++ copy k ys) = xs ++ gap ++ ys := by
  have hfirst := store_copy_within xs [] (buf.take xs.length) (buf.drop xs.length)
    (by rw [List.length_take, hbuf]; omega)
  rw [List.nil_append, List.take_append_drop, List.nil_append, List.length_nil] at hfirst
  have hrest : (buf.drop xs.length).length = k - xs.length + ys.length := by
    rw [List.length_drop, hbuf]
    omega
  have hk : (xs ++ (buf.drop xs.length).take (k - xs.length)).length = k := by
    rw [List.length_append, List.length_take, hrest]
    omega
  have hsecond := store_copy_append ys (xs ++ (buf.drop xs.length).take (k - xs.length))
    ((buf.drop xs.length).drop (k - xs.length)) (by rw [List.length_drop, hrest]; omega)
  rw [List.append_assoc, List.take_append_drop, hk] at hsecond
  refine ⟨(buf.drop xs.length).take (k - xs.length), hk, ?_⟩
  rw [store, List.foldl_append]
  exact (congrArg (store · (copy k ys)) hfirst).trans hsecond

/-- A contiguous write over the whole buffer leaves exactly what it wrote. -/
theorem store_copy {buf xs : List α} (h : buf.length = xs.length) :
    store buf (copy 0 xs) = xs := by
  simpa using store_copy_append xs [] buf h

end Buffer
