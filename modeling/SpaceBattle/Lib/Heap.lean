import Mathlib.Algebra.BigOperators.Group.List.Basic
import Mathlib.Algebra.GroupWithZero.Nat
import Mathlib.Order.Nat
import SpaceBattle.Lib.Buffer

/-!
# A heap

`alloc` gives the address of a new block, `free` gives a block back. `store` assigns into a
block and `load` reads a part of one. Outside of a block, and in a block that has been freed,
`store`, `load` and `free` fail. An address is given out once, so that what is done through an
address that is stale always fails.

`Holds` : the address is that of a live block of the size. `Frame m m' P` : the blocks at the
addresses of `P` are in `m'` what they were in `m`. An allocation frames every address
(`frame_alloc`), a store or a free all but its own (`frame_of_store`, `frame_of_free`), and
frames compose.
-/

/-- A block. What it held is kept when it is freed. -/
structure Block (β : Type*) where
  contents : List β
  freed : Bool

/-- The blocks, by address. -/
structure Heap (β : Type*) where
  blocks : List (Block β)

namespace Heap

variable {β : Type*}

/-- The heap without blocks. -/
def empty : Heap β :=
  ⟨[]⟩

/-- The block at the address. No block is one that has been freed. -/
def block (m : Heap β) (a : ℕ) : Block β :=
  m.blocks.getD a ⟨[], true⟩

/-- What the block at the address holds, or held. -/
def contents (m : Heap β) (a : ℕ) : List β :=
  (m.block a).contents

/-- There is a block at the address, and it has not been freed. -/
def Live (m : Heap β) (a : ℕ) : Prop :=
  (m.block a).freed = false

instance (m : Heap β) (a : ℕ) : Decidable (m.Live a) :=
  inferInstanceAs (Decidable ((m.block a).freed = false))

/-- A new block with the contents, and its address. -/
def alloc (m : Heap β) (contents : List β) : ℕ × Heap β :=
  (m.blocks.length, ⟨m.blocks ++ [⟨contents, false⟩]⟩)

/-- The block at the address is given back. -/
def free (m : Heap β) (a : ℕ) : Option (Heap β) :=
  if m.Live a then some ⟨m.blocks.set a { m.block a with freed := true }⟩ else none

/-- The assignments, in the block at the address. -/
def store (m : Heap β) (a : ℕ) (ws : List (ℕ × β)) : Option (Heap β) :=
  if m.Live a ∧ ∀ i ∈ ws.map Prod.fst, i < (m.contents a).length then
    some ⟨m.blocks.set a { m.block a with contents := Buffer.store (m.contents a) ws }⟩
  else none

/-- The `n` elements from index `i` on, of the block at the address. -/
def load (m : Heap β) (a i n : ℕ) : Option (List β) :=
  if m.Live a ∧ i + n ≤ (m.contents a).length then some (((m.contents a).drop i).take n)
  else none

/-- The number of elements of a block that it takes up. -/
def blockSize (b : Block β) : ℕ :=
  if b.freed then 0 else b.contents.length

/-- The number of elements in the live blocks. -/
def size (m : Heap β) : ℕ :=
  (m.blocks.map blockSize).sum

/-- The address is that of a live block of `n` elements. -/
structure Holds (m : Heap β) (a n : ℕ) : Prop where
  live : m.Live a
  length : (m.contents a).length = n

/-- The blocks at the addresses of `P` are the same in the second heap, and no block that has
been freed is back. -/
structure Frame (m m' : Heap β) (P : ℕ → Prop) : Prop where
  blocks : m.blocks.length ≤ m'.blocks.length
  block : ∀ a, P a → a < m.blocks.length → m'.block a = m.block a
  freed : ∀ a, a < m.blocks.length → ¬m.Live a → ¬m'.Live a

variable {m m' m'' : Heap β} {P : ℕ → Prop} {a : ℕ}

theorem block_of_length_le (h : m.blocks.length ≤ a) : m.block a = ⟨[], true⟩ := by
  simp [block, List.getElem?_eq_none h]

theorem Live.lt (h : m.Live a) : a < m.blocks.length := by
  by_contra hle
  rw [Live, block_of_length_le (not_lt.1 hle)] at h
  cases h

theorem Frame.trans (h : Frame m m' P) (h' : Frame m' m'' P) : Frame m m'' P where
  blocks := h.blocks.trans h'.blocks
  block a ha hlt := (h'.block a ha (hlt.trans_le h.blocks)).trans (h.block a ha hlt)
  freed a hlt hfreed := h'.freed a (hlt.trans_le h.blocks) (h.freed a hlt hfreed)

theorem Frame.refl (m : Heap β) (P : ℕ → Prop) : Frame m m P :=
  ⟨le_rfl, fun _ _ _ => rfl, fun _ _ h => h⟩

theorem Frame.contents (h : Frame m m' P) (ha : P a) (hlt : a < m.blocks.length) :
    m'.contents a = m.contents a :=
  congrArg Block.contents (h.block a ha hlt)

/-- A block that is framed is held on. -/
theorem Holds.frame {n : ℕ} (h : m.Holds a n) (hframe : Frame m m' P) (ha : P a) :
    m'.Holds a n where
  live := by rw [Live, hframe.block a ha h.live.lt, h.live]
  length := by rw [hframe.contents ha h.live.lt, h.length]

/-! ## Blocks that are set -/

theorem block_set (m : Heap β) {a : ℕ} (hlt : a < m.blocks.length) (b : Block β) :
    (⟨m.blocks.set a b⟩ : Heap β).block a = b := by
  simp [block, hlt]

theorem block_set_of_ne (m : Heap β) {a a' : ℕ} (hne : a' ≠ a) (b : Block β) :
    (⟨m.blocks.set a b⟩ : Heap β).block a' = m.block a' := by
  simp [block, List.getElem?_set_ne hne.symm]

/-- Another block at one address frames the others. -/
theorem frame_set {b : Block β} (hlive : m.Live a) (hP : ¬P a) :
    Frame m ⟨m.blocks.set a b⟩ P where
  blocks := by simp
  block a' ha' _ := by
    have hne : a' ≠ a := fun heq => hP (heq ▸ ha')
    exact block_set_of_ne m hne b
  freed a' _ hfreed := by
    have hne : a' ≠ a := fun heq => hfreed (heq ▸ hlive)
    rwa [Live, block_set_of_ne m hne]

/-- Another block at one address changes the size by the difference. -/
theorem size_set (hlt : a < m.blocks.length) (b : Block β) :
    size ⟨m.blocks.set a b⟩ + blockSize (m.block a) = m.size + blockSize b := by
  obtain ⟨blocks⟩ := m
  simp only [size, block]
  induction blocks generalizing a with
  | nil => simp at hlt
  | cons x blocks ih =>
    cases a with
    | zero =>
      simp only [List.set_cons_zero, List.map_cons, List.sum_cons, List.getD_cons_zero]
      omega
    | succ a =>
      have hrest := ih (Nat.lt_of_succ_lt_succ hlt)
      simp only [List.set_cons_succ, List.map_cons, List.sum_cons, List.getD_cons_succ]
      omega

/-! ## Allocation -/

theorem block_alloc (m : Heap β) (contents : List β) :
    (m.alloc contents).2.block (m.alloc contents).1 = ⟨contents, false⟩ := by
  simp [alloc, block]

@[simp] theorem contents_alloc (m : Heap β) (contents : List β) :
    (m.alloc contents).2.contents (m.alloc contents).1 = contents := by
  rw [Heap.contents, block_alloc]

theorem holds_alloc (m : Heap β) (contents : List β) :
    (m.alloc contents).2.Holds (m.alloc contents).1 contents.length where
  live := by rw [Live, block_alloc]
  length := by rw [contents_alloc]

theorem block_alloc_of_lt (m : Heap β) (contents : List β) (hlt : a < m.blocks.length) :
    (m.alloc contents).2.block a = m.block a := by
  simp [alloc, block, List.getElem?_append_left hlt]

theorem frame_alloc (m : Heap β) (contents : List β) (P : ℕ → Prop) :
    Frame m (m.alloc contents).2 P where
  blocks := by simp [alloc]
  block _ _ hlt := block_alloc_of_lt m contents hlt
  freed a hlt hfreed := by rwa [Live, block_alloc_of_lt m contents hlt]

theorem size_alloc (m : Heap β) (contents : List β) :
    (m.alloc contents).2.size = m.size + contents.length := by
  simp [alloc, size, blockSize]

/-! ## Stores and loads -/

/-- Assignments into a block succeed. -/
theorem Holds.exists_store {n : ℕ} (h : m.Holds a n) {ws : List (ℕ × β)}
    (hws : ∀ i ∈ ws.map Prod.fst, i < n) : ∃ m', m.store a ws = some m' :=
  ⟨_, if_pos ⟨h.live, fun i hi => h.length ▸ hws i hi⟩⟩

theorem store_eq_some {ws : List (ℕ × β)} (h : m.store a ws = some m') : m.Live a ∧
    m' = ⟨m.blocks.set a { m.block a with contents := Buffer.store (m.contents a) ws }⟩ := by
  simp only [store, Option.ite_none_right_eq_some, Option.some.injEq] at h
  exact ⟨h.1.1, h.2.symm⟩

theorem contents_of_store {ws : List (ℕ × β)} (h : m.store a ws = some m') :
    m'.contents a = Buffer.store (m.contents a) ws := by
  obtain ⟨hlive, rfl⟩ := store_eq_some h
  rw [contents, block_set m hlive.lt]

theorem frame_of_store {ws : List (ℕ × β)} (h : m.store a ws = some m') (hP : ¬P a) :
    Frame m m' P := by
  obtain ⟨hlive, rfl⟩ := store_eq_some h
  exact frame_set hlive hP

/-- A new block that is written leaves every other. -/
theorem frame_of_alloc_store {contents : List β} {ws : List (ℕ × β)}
    (h : (m.alloc contents).2.store (m.alloc contents).1 ws = some m') (P : ℕ → Prop) :
    Frame m m' P := by
  have hframe : Frame m m' fun a => a ≠ (m.alloc contents).1 :=
    (frame_alloc m contents _).trans (frame_of_store h fun hself => hself rfl)
  exact ⟨hframe.blocks, fun a _ hlt => hframe.block a hlt.ne hlt, hframe.freed⟩

theorem holds_of_store {b n : ℕ} {ws : List (ℕ × β)} (h : m.store a ws = some m')
    (hb : m.Holds b n) : m'.Holds b n := by
  rcases eq_or_ne b a with rfl | hne
  · refine ⟨?_, by rw [contents_of_store h, Buffer.length_store, hb.length]⟩
    obtain ⟨hlive, rfl⟩ := store_eq_some h
    rw [Live, block_set m hlive.lt]
    exact hlive
  · exact hb.frame (frame_of_store (P := (· ≠ a)) h fun hself => hself rfl) hne

theorem size_of_store {ws : List (ℕ × β)} (h : m.store a ws = some m') : m'.size = m.size := by
  obtain ⟨hlive, rfl⟩ := store_eq_some h
  have hset := size_set hlive.lt { m.block a with contents := Buffer.store (m.contents a) ws }
  have hsame : blockSize { m.block a with contents := Buffer.store (m.contents a) ws } =
      blockSize (m.block a) := by
    simp [blockSize, Buffer.length_store, contents]
  omega

/-- A part of a block can be read. -/
theorem Holds.load {i k n : ℕ} (h : m.Holds a n) (hk : i + k ≤ n) :
    m.load a i k = some (((m.contents a).drop i).take k) :=
  if_pos ⟨h.live, h.length ▸ hk⟩

/-- The whole of a block can be read. -/
theorem Holds.load_all {n : ℕ} (h : m.Holds a n) : m.load a 0 n = some (m.contents a) := by
  rw [h.load (Nat.zero_add n).le, List.drop_zero, List.take_of_length_le h.length.le]

/-! ## What is given back -/

theorem free_eq_some (h : m.free a = some m') :
    m.Live a ∧ m' = ⟨m.blocks.set a { m.block a with freed := true }⟩ := by
  simp only [free, Option.ite_none_right_eq_some, Option.some.injEq] at h
  exact ⟨h.1, h.2.symm⟩

theorem not_live_of_free (h : m.free a = some m') : ¬m'.Live a := by
  obtain ⟨hlive, rfl⟩ := free_eq_some h
  simp [Live, block_set m hlive.lt]

theorem frame_of_free (h : m.free a = some m') (hP : ¬P a) : Frame m m' P := by
  obtain ⟨hlive, rfl⟩ := free_eq_some h
  exact frame_set hlive hP

/-- What a block held is there to be seen when it has been freed. -/
theorem contents_of_free (h : m.free a = some m') (b : ℕ) : m'.contents b = m.contents b := by
  obtain ⟨hlive, rfl⟩ := free_eq_some h
  rcases eq_or_ne b a with rfl | hne
  · rw [contents, block_set m hlive.lt, contents]
  · rw [contents, block_set_of_ne m hne, contents]

theorem size_of_free {n : ℕ} (h : m.free a = some m') (ha : m.Holds a n) :
    m'.size + n = m.size := by
  obtain ⟨hlive, rfl⟩ := free_eq_some h
  have hset := size_set hlive.lt { m.block a with freed := true }
  have hfreed : blockSize { m.block a with freed := true } = 0 := rfl
  have hbefore : blockSize (m.block a) = n := by
    rw [blockSize, if_neg (by rw [ha.live]; exact Bool.false_ne_true)]
    exact ha.length
  omega

/-- The blocks at the addresses are given back, one after another. -/
def freeAll (m : Heap β) (addresses : List ℕ) : Option (Heap β) :=
  addresses.foldlM free m

/-- Live blocks of one size, no address twice, can be given back. That frames all the others,
and leaves what they held. -/
theorem exists_freeAll {n : ℕ} : ∀ {addresses : List ℕ} {m : Heap β}, addresses.Nodup →
    (∀ a ∈ addresses, m.Holds a n) → ∃ m', m.freeAll addresses = some m' ∧
      Frame m m' (fun a => a ∉ addresses) ∧ (∀ a ∈ addresses, ¬m'.Live a) ∧
      (∀ a, m'.contents a = m.contents a) ∧ m'.size + n * addresses.length = m.size := by
  intro addresses
  induction addresses with
  | nil =>
    intro m _ _
    exact ⟨m, rfl, Frame.refl m _, by simp, fun _ => rfl, by simp⟩
  | cons a addresses ih =>
    intro m hnodup hholds
    obtain ⟨hnotMem, hnodup⟩ := List.nodup_cons.1 hnodup
    have ha := hholds a List.mem_cons_self
    obtain ⟨m₁, hfree⟩ : ∃ m₁, m.free a = some m₁ := ⟨_, if_pos ha.live⟩
    have hframe := frame_of_free (P := fun b => b ≠ a) hfree fun hself => hself rfl
    have hrest : ∀ b ∈ addresses, m₁.Holds b n := fun b hb =>
      (hholds b (List.mem_cons_of_mem a hb)).frame hframe fun heq => hnotMem (heq ▸ hb)
    obtain ⟨m', hall, hframe', hgone, hcontents, hsize⟩ := ih hnodup hrest
    have hlt : a < m₁.blocks.length := ha.live.lt.trans_le hframe.blocks
    refine ⟨m', ?_, ?_, fun b hb => ?_, fun b => ?_, ?_⟩
    · rw [freeAll, List.foldlM_cons, hfree]
      exact hall
    · refine (frame_of_free hfree ?_).trans ⟨hframe'.blocks, fun b hb => ?_, hframe'.freed⟩
      · simp
      · exact hframe'.block b fun hmem => hb (List.mem_cons_of_mem a hmem)
    · rcases List.mem_cons.1 hb with rfl | hb
      · exact hframe'.freed b hlt (not_live_of_free hfree)
      · exact hgone b hb
    · rw [hcontents b, contents_of_free hfree]
    · have hone := size_of_free hfree ha
      rw [List.length_cons, Nat.mul_succ]
      omega

end Heap
