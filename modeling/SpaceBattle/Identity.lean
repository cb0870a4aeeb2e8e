import SpaceBattle.Pool

/-!
# Connection identity

The id of a new connection is the number of live connections plus one, while connections
leave the pool in any order. Two connections accepted when equally many were live get the
same id, and the close of one then removes both.

`Roster` is the pool as it is meant to be : a closed connection leaves alone. It is
computed from the events, and remembers with each live connection how many were live when
it was accepted, its level. `identity_kept_iff` : along a run the ids are distinct, the id
of a new connection is new, and a close removes exactly the closed connection, if and only
if no connection is accepted while one accepted at the same level is still live.
-/

namespace SpaceBattle

namespace InputConnectionPool

/-! ## What is to be kept -/

/-- The ids of the live connections are pairwise distinct. -/
def DistinctIds (s : InputConnectionPool) : Prop :=
  (s.inputCollection.map (·.id)).Nodup

/-- A step gives no live connection's id away, and closes one connection only. -/
structure IdentityKept (s : InputConnectionPool) (e : Event) (_ : Option Response)
    (s' : InputConnectionPool) : Prop where
  /-- The id `insert` assigns is not held by a live connection. -/
  fresh : e = .accept → ∀ c ∈ s.inputCollection, c.id ≠ s.insert.1
  /-- `remove` removes the connection that closed. -/
  removed : ∀ h, e = .lost h → s'.names = s.names.filter fun x => x.1 ≠ h

/-! ## The roster -/

/-- The live connections by handle and level, and the number accepted so far. -/
structure Roster where
  live : List (ℕ × ℕ)
  accepted : ℕ

/-- What an event does to the roster. -/
def Roster.update (r : Roster) : Event × Option Response → Roster
  | (.accept, _) => ⟨r.live ++ [(r.accepted, r.live.length)], r.accepted + 1⟩
  | (.request _ _, _) => r
  | (.lost h, _) => { r with live := r.live.filter fun x => x.1 ≠ h }

/-- The roster of a trace. -/
def roster (tr : List (Event × Option Response)) : Roster :=
  tr.foldl Roster.update ⟨[], 0⟩

/-- No live connection was accepted at the level at which the event accepts one. -/
def LevelFree (r : Roster) (e : Event) : Prop :=
  e = .accept → ∀ x ∈ r.live, x.2 ≠ r.live.length

/-- No connection of the trace is accepted while one accepted at the same level is live. -/
def LevelsFree (tr : List (Event × Option Response)) : Prop :=
  ∀ tr₁ e o, tr₁ ++ [(e, o)] <+: tr → LevelFree (roster tr₁) e

theorem roster_snoc (tr : List (Event × Option Response)) (x : Event × Option Response) :
    roster (tr ++ [x]) = (roster tr).update x := by
  simp [roster]

theorem levelsFree_snoc {tr : List (Event × Option Response)} {e : Event} {o : Option Response} :
    LevelsFree (tr ++ [(e, o)]) ↔ LevelsFree tr ∧ LevelFree (roster tr) e := by
  refine ⟨fun h => ⟨fun tr₁ e₁ o₁ hpre => h tr₁ e₁ o₁ (hpre.trans (List.prefix_append _ _)),
    h tr e o (List.prefix_refl _)⟩, fun h tr₁ e₁ o₁ hpre => ?_⟩
  rcases List.prefix_concat_iff.1 hpre with heq | hpre
  · obtain ⟨rfl, hlast⟩ := List.append_inj' heq rfl
    obtain ⟨rfl, -⟩ : e₁ = e ∧ o₁ = o := by simpa using hlast
    exact h.2
  · exact h.1 tr₁ e₁ o₁ hpre

/-! ## The pool follows the roster -/

/-- The pool is the roster, with distinct ids : a connection's id is its level plus one. -/
structure Follows (s : InputConnectionPool) (r : Roster) : Prop where
  names : s.names = r.live.map fun x => (x.1, x.2 + 1)
  accepted : s.accepted = r.accepted
  distinct : s.DistinctIds
  handles : s.Handles

theorem Follows.length {s : InputConnectionPool} {r : Roster} (h : s.Follows r) :
    s.inputCollection.length = r.live.length := by
  simpa [InputConnectionPool.names] using congrArg List.length h.names

theorem distinctIds_iff {s : InputConnectionPool} :
    s.DistinctIds ↔ (s.names.map Prod.snd).Nodup := by
  simp [DistinctIds, names, Function.comp_def]

/-- With distinct ids, the connection with a name's id is the one with its handle. -/
theorem filter_id_eq_filter_handle {s : InputConnectionPool} (hs : s.Handles)
    (hdistinct : s.DistinctIds) {c : Protocol} (hc : c ∈ s.inputCollection) :
    (s.names.filter fun x => x.2 ≠ c.id) = s.names.filter fun x => x.1 ≠ c.handle := by
  refine List.filter_congr fun x hx => ?_
  obtain ⟨c', hc', hh, hi⟩ := mem_names.1 (show (x.1, x.2) ∈ s.names from hx)
  have hsame : x.2 = c.id ↔ x.1 = c.handle := by
    rw [← hh, ← hi]
    refine ⟨fun h => ?_, fun h => ?_⟩
    · rw [List.inj_on_of_nodup_map hdistinct hc' hc h]
    · rw [hs.eq hc' hc h]
  simp [hsame]

/-- The new id is held by a live connection exactly if the level is taken. -/
theorem Follows.fresh_iff {s : InputConnectionPool} {r : Roster} (h : s.Follows r) :
    (∀ c ∈ s.inputCollection, c.id ≠ s.insert.1) ↔ ∀ x ∈ r.live, x.2 ≠ r.live.length := by
  have hid : s.insert.1 = r.live.length + 1 := by
    rw [← h.length]
    rfl
  have hnames : (∃ y ∈ s.names, y.2 = r.live.length + 1) ↔ ∃ x ∈ r.live, x.2 = r.live.length := by
    simp [h.names]
  have hids : (∃ y ∈ s.names, y.2 = r.live.length + 1) ↔
      ∃ c ∈ s.inputCollection, c.id = r.live.length + 1 := by
    simp [InputConnectionPool.names]
  have hfresh := not_congr (hids.symm.trans hnames)
  rw [hid]
  simpa only [not_exists, not_and] using hfresh

/-- Only an accept asks for a level. -/
theorem levelFree_of_ne {r : Roster} {e : Event} (he : e ≠ .accept) : LevelFree r e := fun heq =>
  absurd heq he

/-- A step of a pool that follows the roster keeps identity exactly if it accepts no
connection at a level that is taken, and then the pool still follows the roster. -/
theorem Follows.step {s s' : InputConnectionPool} {e : Event} {o : Option Response} {r : Roster}
    (h : s.Follows r) (hstep : pool.step s e = some (s', o)) :
    (s.IdentityKept e o s' ↔ LevelFree r e) ∧ (LevelFree r e → s'.Follows (r.update (e, o))) := by
  have hs' := handles_step h.handles hstep
  rcases step_cases hstep with
    ⟨rfl, rfl, rfl⟩ | ⟨i, _, _, _, rp, rooms, rfl, rfl, -, -, -, rfl⟩ | ⟨i, c, rfl, rfl, hfind, rfl⟩
  · refine ⟨⟨fun hkept _ => h.fresh_iff.1 (hkept.fresh rfl),
      fun hfree => ⟨fun _ => h.fresh_iff.2 (hfree rfl), by simp⟩⟩, fun hfree => ?_⟩
    have hfresh := h.fresh_iff.2 (hfree rfl)
    refine ⟨?_, ?_, ?_, hs'⟩
    · rw [names_insert, h.names, h.length, h.accepted]
      simp [Roster.update]
    · simp [insert, Roster.update, h.accepted]
    · have hnew : s.insert.2.inputCollection.map (·.id) =
          s.inputCollection.map (·.id) ++ [s.insert.1] := by simp [insert, Protocol.new]
      rw [DistinctIds, hnew]
      refine h.distinct.append (List.nodup_singleton _) fun i hi hnew => ?_
      obtain ⟨c, hc, rfl⟩ := List.mem_map.1 hi
      exact hfresh c hc (List.mem_singleton.1 hnew)
  · refine ⟨⟨fun _ => levelFree_of_ne (by simp), fun _ => ⟨by simp, by simp⟩⟩,
      fun _ => ⟨?_, h.accepted, ?_, hs'⟩⟩
    · rw [names_assign]
      exact h.names
    · rw [distinctIds_iff, names_assign, ← distinctIds_iff]
      exact h.distinct
  · obtain ⟨hc, rfl⟩ := find_spec hfind
    have hremoved := filter_id_eq_filter_handle h.handles h.distinct hc
    refine ⟨⟨fun _ => levelFree_of_ne (by simp), fun _ => ⟨by simp, fun i he => ?_⟩⟩,
      fun _ => ⟨?_, h.accepted, ?_, hs'⟩⟩
    · obtain rfl := Event.lost.inj he
      rw [names_remove, hremoved]
    · rw [names_remove, hremoved, h.names]
      simp [Roster.update, List.filter_map, Function.comp_def]
    · rw [distinctIds_iff, names_remove]
      exact (List.filter_sublist.map Prod.snd).nodup (distinctIds_iff.1 h.distinct)

/-- Along a run the ids are distinct, the id of a new connection is new, and a close
removes exactly the closed connection, if and only if no connection is accepted while one
accepted at the same level is still live. -/
theorem identity_kept_iff {tr : List (Event × Option Response)} {s : InputConnectionPool}
    (h : pool.Run tr s) :
    pool.Throughout DistinctIds tr ∧ pool.Along IdentityKept tr ↔ LevelsFree tr := by
  have hboth : (pool.Throughout DistinctIds tr ∧ pool.Along IdentityKept tr ↔ LevelsFree tr) ∧
      (LevelsFree tr → s.Follows (roster tr)) := by
    induction h with
    | nil =>
      have hinit : pool.init.Follows (roster []) :=
        ⟨rfl, rfl, List.nodup_nil, handles_init⟩
      have hfree : LevelsFree [] := fun tr₁ e o hpre => by simp at hpre
      exact ⟨⟨fun _ => hfree, fun _ => ⟨Machine.throughout_nil.2 hinit.distinct,
        Machine.along_nil⟩⟩, fun _ => hinit⟩
    | @snoc tr s s' e o hr hstep ih =>
      rw [Machine.throughout_snoc hr hstep, Machine.along_snoc hr hstep, levelsFree_snoc,
        roster_snoc]
      refine ⟨⟨fun hkept => ?_, fun hfree => ?_⟩, fun hfree => ?_⟩
      · have hfree := ih.1.1 ⟨hkept.1.1, hkept.2.1⟩
        exact ⟨hfree, ((ih.2 hfree).step hstep).1.1 hkept.2.2⟩
      · obtain ⟨hthrough, halong⟩ := ih.1.2 hfree.1
        have hs' := ((ih.2 hfree.1).step hstep).2 hfree.2
        exact ⟨⟨hthrough, hs'.distinct⟩, halong, ((ih.2 hfree.1).step hstep).1.2 hfree.2⟩
      · exact ((ih.2 hfree.1).step hstep).2 hfree.2
  exact hboth.1

/-- The last connection leaves and another comes : its id is free again. -/
theorem identity_kept_iff_last_leaves : ∃ tr s, pool.Run tr s ∧ s.names = [(0, 1), (2, 2)] ∧
    (pool.Throughout DistinctIds tr ∧ pool.Along IdentityKept tr ↔ LevelsFree tr) := by
  have hrun := Machine.run_of_isSome pool [.accept, .accept, .lost 1, .accept] (by decide +kernel)
  exact ⟨_, _, hrun, by decide +kernel, identity_kept_iff hrun⟩

/-- The first connection leaves and another comes : it gets the id of the second, and
the close of either removes both. -/
theorem same_id_twice : ∃ tr s, pool.Run tr s ∧ s.names = [(1, 2), (2, 2)] ∧
    (∃ s' o, pool.step s (.lost 2) = some (s', o) ∧ s'.names = []) ∧
    ¬(pool.Throughout DistinctIds tr ∧ pool.Along IdentityKept tr) := by
  have hrun := Machine.run_of_isSome pool [.accept, .accept, .lost 0, .accept] (by decide +kernel)
  refine ⟨_, _, hrun, by decide +kernel, ⟨_, none, rfl, by decide +kernel⟩, fun h => ?_⟩
  have hdistinct := h.1 _ _ (List.prefix_refl _) hrun
  revert hdistinct
  unfold DistinctIds
  decide +kernel

end InputConnectionPool

end SpaceBattle
