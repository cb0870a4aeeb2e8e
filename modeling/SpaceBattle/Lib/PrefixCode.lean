import Mathlib.Data.List.Basic
import Mathlib.InformationTheory.Coding.UniquelyDecodable

/-!
# Prefix codes

A code says which words stand for a value. It is a prefix code if no word is empty and none
begins the word of another value or another word of its own. A stream of words then tells
the values and the words themselves, and the beginning of a stream tells the first of them
(`PrefixCode.prefix_of_flatten`), so the words are uniquely decodable.

`PrefixCode.terminated` : words that end with a symbol they hold nowhere else.
-/

open InformationTheory

/-- No word begins another, and none is empty. -/
structure PrefixCode {α β : Type*} (Encodes : α → List β → Prop) : Prop where
  ne_nil : ∀ {x u}, Encodes x u → u ≠ []
  eq_of_prefix : ∀ {x y u v}, Encodes x u → Encodes y v → u <+: v → x = y ∧ u = v

namespace PrefixCode

variable {α β : Type*} {Encodes : α → List β → Prop}

/-- Two words that begin comparable streams are the same. -/
theorem of_append (h : PrefixCode Encodes) {x y : α} {u v p q : List β} (hu : Encodes x u)
    (hv : Encodes y v) (hpre : u ++ p <+: v ++ q) : x = y ∧ u = v ∧ p <+: q := by
  have hxy : x = y ∧ u = v := by
    rcases List.prefix_or_prefix_of_prefix ((List.prefix_append u p).trans hpre)
      (List.prefix_append v q) with huv | hvu
    · exact h.eq_of_prefix hu hv huv
    · obtain ⟨rfl, rfl⟩ := h.eq_of_prefix hv hu hvu
      exact ⟨rfl, rfl⟩
  obtain ⟨rfl, rfl⟩ := hxy
  exact ⟨rfl, rfl, (List.prefix_append_right_inj u).1 hpre⟩

/-- A stream that begins another encodes the first values of the other. -/
theorem prefix_of_flatten (h : PrefixCode Encodes) {xs ys : List α} {us vs : List (List β)}
    (hus : List.Forall₂ Encodes xs us) (hvs : List.Forall₂ Encodes ys vs)
    (hpre : us.flatten <+: vs.flatten) : xs <+: ys ∧ us <+: vs := by
  induction hus generalizing ys vs with
  | nil => exact ⟨List.nil_prefix, List.nil_prefix⟩
  | @cons x u xs us hu hus ih =>
    cases hvs with
    | nil =>
      rw [List.flatten_cons, List.flatten_nil, List.prefix_nil, List.append_eq_nil_iff] at hpre
      exact absurd hpre.1 (h.ne_nil hu)
    | cons hv hvs =>
      rw [List.flatten_cons, List.flatten_cons] at hpre
      obtain ⟨rfl, rfl, hrest⟩ := h.of_append hu hv hpre
      obtain ⟨hxs, hus⟩ := ih hvs hrest
      exact ⟨List.cons_prefix_cons.2 ⟨rfl, hxs⟩, List.cons_prefix_cons.2 ⟨rfl, hus⟩⟩

/-- Streams that are equal encode the same values, by the same words. -/
theorem eq_of_flatten (h : PrefixCode Encodes) {xs ys : List α} {us vs : List (List β)}
    (hus : List.Forall₂ Encodes xs us) (hvs : List.Forall₂ Encodes ys vs)
    (heq : us.flatten = vs.flatten) : xs = ys ∧ us = vs := by
  obtain ⟨hxy, huv⟩ := h.prefix_of_flatten hus hvs (heq ▸ List.prefix_rfl)
  obtain ⟨hyx, hvu⟩ := h.prefix_of_flatten hvs hus (heq ▸ List.prefix_rfl)
  exact ⟨hxy.eq_of_length_le hyx.length_le, huv.eq_of_length_le hvu.length_le⟩

theorem uniquelyDecodable (h : PrefixCode Encodes) :
    UniquelyDecodable {u | ∃ x, Encodes x u} := by
  have hvalues (us : List (List β)) (hus : ∀ u ∈ us, ∃ x, Encodes x u) :
      ∃ xs, List.Forall₂ Encodes xs us := by
    induction us with
    | nil => exact ⟨[], .nil⟩
    | cons u us ih =>
      obtain ⟨⟨x, hu⟩, hus⟩ := List.forall_mem_cons.1 hus
      obtain ⟨xs, hxs⟩ := ih hus
      exact ⟨x :: xs, .cons hu hxs⟩
  intro us vs hus hvs heq
  obtain ⟨xs, hxs⟩ := hvalues us hus
  obtain ⟨ys, hys⟩ := hvalues vs hvs
  exact (h.eq_of_flatten hxs hys heq).2

/-- Words that end with a symbol they hold nowhere else. -/
theorem terminated (d : β) : PrefixCode fun x u : List β => d ∉ x ∧ u = x ++ [d] where
  ne_nil := by
    rintro x _ ⟨-, rfl⟩
    simp
  eq_of_prefix := by
    rintro x y _ _ ⟨hx, rfl⟩ ⟨hy, rfl⟩ ⟨rest, hrest⟩
    rw [List.append_assoc, List.singleton_append] at hrest
    obtain ⟨rfl, -, -⟩ := (List.append_cons_inj_of_notMem hy List.not_mem_nil).1 hrest.symm
    exact ⟨rfl, rfl⟩

end PrefixCode
