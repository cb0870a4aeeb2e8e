import SpaceBattle.Exchange

/-!
# Requests are atomic

A request takes effect when the server has read the last byte of its body, at one event of
the network, and what the clients of a whole run observe is what the pool does when each
request is one step of it. `Explains` : in a run of the pool, the requests of each
connection are the first it asked, and the responses delivered to it are the first of the
pool's answers. `linearizable` : a run of the pool explains the run of the network, and at
every earlier moment a part of it did, so a request whose response was delivered before
another was asked comes before it.
-/

namespace SpaceBattle

open Cpp AsyncWrite

namespace Network

/-- The exchange an event of the pool completes. -/
def served? : InputConnectionPool.Event × Option Response → Option (ℕ × Request × Response)
  | (.request h request, some response) => some (h, request, response)
  | _ => none

/-- The exchanges of a run of the pool. -/
def served (ptr : List (InputConnectionPool.Event × Option Response)) :
    List (ℕ × Request × Response) :=
  ptr.filterMap served?

/-- In the run of the pool the requests of each connection are the first that were asked, and
the responses delivered are the first of its answers. -/
structure Explains (ptr : List (InputConnectionPool.Event × Option Response))
    (tr : List (Event × Option Report)) : Prop where
  asked : ∀ g, (on g (served ptr)).map Prod.fst <+: asked g tr
  delivered : ∀ g, delivered g tr <+: (on g (served ptr)).map Prod.snd

end Network

namespace Engine

/-- A completion that throws nothing leaves the pool as it is, or is an event of the pool
without an answer, or the request that has been read. -/
theorem Completion.pool_cases {s s' : Engine} {e : Event} {o : Option Response}
    (h : Completion s e o s') (hfault : s'.fault = none) :
    (s'.connections = s.connections ∧ o = none) ∨
    (∃ e', pool.step s.connections e' = some (s'.connections, none) ∧ o = none) ∨
    ∃ g data beyond heap response, e = .received g data beyond heap ∧ o = some response ∧
      pool.step s.connections (.request g ((s.session g).input.request (data ++ beyond))) =
        some (s'.connections, some response) := by
  cases h with
  | accepted => exact Or.inr (Or.inl ⟨.accept, rfl, rfl⟩)
  | decoded | wrote => exact Or.inl ⟨rfl, rfl⟩
  | refused | unclosed | aborted => cases hfault
  | @lost c hfind =>
    refine Or.inr (Or.inl ⟨.lost c.handle, ?_, rfl⟩)
    simp [pool, InputConnectionPool.step, hfind]
  | @answered c data beyond heap response _ _ hfind _ hprocess =>
    refine Or.inr (Or.inr ⟨c.handle, data, beyond, heap, response, rfl, rfl, ?_⟩)
    simp [pool, InputConnectionPool.step, hfind, hprocess]

end Engine

namespace Network

theorem exchange?_none (e : Event) : exchange? (e, none) = none := by
  cases e <;> rfl

theorem served_snoc (ptr : List (InputConnectionPool.Event × Option Response))
    (x : InputConnectionPool.Event × Option Response) :
    served (ptr ++ [x]) = served ptr ++ (served? x).toList := by
  rw [served, List.filterMap_append, filterMap_singleton_eq_toList]
  rfl

theorem exchanges_snoc (tr : List (Event × Option Report)) (x : Event × Option Report) :
    exchanges (tr ++ [x]) = exchanges tr ++ (exchange? x).toList := by
  rw [exchanges_append, exchanges, exchanges, filterMap_singleton_eq_toList]

/-- What a step of the network is to the pool : nothing, or one event with the same
exchange. -/
theorem pool_step {s s' : Network} {e : Event} {o : Option Report} (ht : Transition s e o s')
    (hfault : s'.server.fault = none) : s.server.fault = none ∧
      ((s'.server.connections = s.server.connections ∧ exchange? (e, o) = none) ∨
      ∃ x, pool.step s.server.connections x.1 = some (s'.server.connections, x.2) ∧
        served? x = exchange? (e, o)) := by
  -- an event of the engine that answers nothing
  have hquiet {e' : Engine.Event} {server' : Engine} (hstep : engine.step s.server e' =
      some (server', none)) (hfault : server'.fault = none) : s.server.fault = none ∧
        ((server'.connections = s.server.connections) ∨
        ∃ pe, pool.step s.server.connections pe = some (server'.connections, none)) := by
    obtain ⟨hbefore, hcompletion⟩ := Engine.completion_of_step hstep
    refine ⟨hbefore, ?_⟩
    rcases hcompletion.pool_cases hfault with ⟨hsame, -⟩ | ⟨pe, hpe, -⟩ | ⟨_, _, _, _, _, _, ho, -⟩
    · exact Or.inl hsame
    · exact Or.inr ⟨pe, hpe⟩
    · cases ho
  have hnone (pe : InputConnectionPool.Event) : served? (pe, none) = none := by
    cases pe <;> rfl
  cases ht with
  | accepted hstep | wrote hstep | failed hstep | aborted hstep =>
    obtain ⟨hbefore, hsame | ⟨pe, hpe⟩⟩ := hquiet hstep hfault
    · exact ⟨hbefore, Or.inl ⟨hsame, exchange?_none _⟩⟩
    · exact ⟨hbefore, Or.inr ⟨(pe, none), hpe, (hnone pe).trans (exchange?_none _).symm⟩⟩
  | asked | sent => exact ⟨hfault, Or.inl ⟨rfl, rfl⟩⟩
  | @delivered _ _ _ o =>
    refine ⟨hfault, Or.inl ⟨rfl, ?_⟩⟩
    cases o <;> rfl
  | @received h data beyond heap _ server' o _ hstep =>
    obtain ⟨hbefore, hcompletion⟩ := Engine.completion_of_step hstep
    refine ⟨hbefore, ?_⟩
    rcases hcompletion.pool_cases hfault with
      ⟨hsame, rfl⟩ | ⟨pe, hpe, rfl⟩ | ⟨g, data', beyond', heap', response, he, rfl, hrequest⟩
    · exact Or.inl ⟨hsame, rfl⟩
    · exact Or.inr ⟨(pe, none), hpe, hnone pe⟩
    · obtain ⟨rfl, rfl, rfl, rfl⟩ := Engine.Event.received.inj he
      exact Or.inr ⟨(_, some response), hrequest, rfl⟩

/-- A step that leaves the server stopped completes no exchange. -/
theorem exchange?_of_fault {s s' : Network} {e : Event} {o : Option Report}
    (ht : Transition s e o s') (hfault : s'.server.fault ≠ none) : exchange? (e, o) = none := by
  cases ht with
  | accepted | asked | sent | wrote | failed | aborted => rfl
  | @delivered _ _ _ o => cases o <;> rfl
  | received _ hstep =>
    obtain ⟨hbefore, hcompletion⟩ := Engine.completion_of_step hstep
    cases hcompletion with
    | decoded | refused => rfl
    | answered => exact absurd hbefore hfault

/-- The server of a network that has not stopped is a pool that served the same exchanges in
the same order. If it has stopped, the pool is the one it stopped with. -/
theorem pool_of_run {tr : List (Event × Option Report)} {s : Network} (h : network.Run tr s) :
    ∃ ptr t, pool.Run ptr t ∧ (s.server.fault = none → t = s.server.connections) ∧
      served ptr = exchanges tr ∧
      ∀ tr₁, tr₁ <+: tr → ∃ ptr₁, ptr₁ <+: ptr ∧ served ptr₁ = exchanges tr₁ := by
  induction h with
  | nil =>
    refine ⟨[], _, .nil, fun _ => rfl, rfl, fun tr₁ hpre => ⟨[], List.prefix_refl _, ?_⟩⟩
    rw [List.prefix_nil.1 hpre]
    rfl
  | @snoc tr s s' e o hrun hstep ih =>
    obtain ⟨ptr, t, hpool, hsame, hserved, hprefixes⟩ := ih
    have ht := transition_of_step hstep
    -- the pool's run goes on, by one event or none
    obtain ⟨rest, t', hpool', hsame', hrest⟩ : ∃ rest t', pool.Run (ptr ++ rest) t' ∧
        (s'.server.fault = none → t' = s'.server.connections) ∧
        served rest = (exchange? (e, o)).toList := by
      by_cases hfault : s'.server.fault = none
      · obtain ⟨hbefore, ⟨hconnections, hnone⟩ | ⟨x, hx, hexchange⟩⟩ := pool_step ht hfault
        · refine ⟨[], t, by simpa using hpool, fun _ => ?_, by rw [hnone]; rfl⟩
          rw [hsame hbefore, hconnections]
        · refine ⟨[x], _, hpool.snoc ?_, fun _ => rfl, ?_⟩
          · rw [hsame hbefore]
            exact hx
          · rw [← hexchange]
            exact filterMap_singleton_eq_toList _ x
      · refine ⟨[], t, by simpa using hpool, fun hnone => absurd hnone hfault, ?_⟩
        rw [exchange?_of_fault ht hfault]
        rfl
    have hwhole : served (ptr ++ rest) = exchanges (tr ++ [(e, o)]) := by
      rw [exchanges_snoc, ← hrest, ← hserved]
      exact List.filterMap_append
    refine ⟨ptr ++ rest, t', hpool', hsame', hwhole, fun tr₁ hpre => ?_⟩
    rcases List.prefix_concat_iff.1 hpre with rfl | hpre
    · exact ⟨_, List.prefix_refl _, hwhole⟩
    · obtain ⟨ptr₁, hptr₁, hserved₁⟩ := hprefixes tr₁ hpre
      exact ⟨ptr₁, hptr₁.trans (List.prefix_append _ _), hserved₁⟩

/-- A run of the pool with the exchanges of a run of the network explains it. -/
theorem explains_of_served {tr : List (Event × Option Report)} {s : Network}
    (h : network.Run tr s) (hshort : ∀ x ∈ tr, Short x.2)
    {ptr : List (InputConnectionPool.Event × Option Response)}
    (hserved : served ptr = exchanges tr) : Explains ptr tr := by
  obtain ⟨-, stage, -, haccounted⟩ := orderly_of_run h hshort
  constructor
  · intro g
    rw [hserved, (haccounted g).asked]
    exact List.prefix_append _ _
  · intro g
    rw [hserved, (haccounted g).answered]
    exact List.prefix_append _ _

/-- Every run of the network is explained by a run of the pool, in which each request is one
step, and at each earlier moment by a part of that run. -/
theorem linearizable {tr : List (Event × Option Report)} {s : Network} (h : network.Run tr s)
    (hshort : ∀ x ∈ tr, Short x.2) : ∃ ptr t, pool.Run ptr t ∧
      (s.server.fault = none → t = s.server.connections) ∧ Explains ptr tr ∧
      ∀ tr₁, tr₁ <+: tr → ∃ ptr₁, ptr₁ <+: ptr ∧ Explains ptr₁ tr₁ := by
  obtain ⟨ptr, t, hpool, hsame, hserved, hprefixes⟩ := pool_of_run h
  refine ⟨ptr, t, hpool, hsame, explains_of_served h hshort hserved, fun tr₁ hpre => ?_⟩
  obtain ⟨ptr₁, hptr₁, hserved₁⟩ := hprefixes tr₁ hpre
  obtain ⟨s₁, hrun₁⟩ := h.of_prefix hpre
  exact ⟨ptr₁, hptr₁, explains_of_served hrun₁ (fun x hx => hshort x (hpre.subset hx)) hserved₁⟩

/-- One client creates a game while another's request for the list is on its way : the list
has the game. -/
theorem linearizable_two : ∃ tr s, network.Run tr s ∧
    (delivered 1 tr).map (·.body.content) = [[lit "1", lit "duel"]] ∧
    delivered 0 tr = [] ∧ ∃ ptr t, pool.Run ptr t ∧
      (s.server.fault = none → t = s.server.connections) ∧ Explains ptr tr ∧
      ∀ tr₁, tr₁ <+: tr → ∃ ptr₁, ptr₁ <+: ptr ∧ Explains ptr₁ tr₁ := by
  have hrun := Machine.run_of_isSome network
    [.accept, .accept,
      .ask 1 ⟨.getGameInfo, ⟨⟨[], by decide +kernel⟩, by decide +kernel⟩⟩ fun _ => 0,
      .ask 0 ⟨.createGame, ⟨⟨[lit "duel", lit "1", lit "5", lit "30"], by decide +kernel⟩,
        by decide +kernel⟩⟩ fun _ => 0,
      .sent 1 0 25, .sent 0 0 37, .received 1 [] fun _ => 0, .received 0 [] fun _ => 0,
      .received 0 [] fun _ => 0, .received 1 [] fun _ => 0, .wrote 1 0 32, .delivered 1 [],
      .delivered 1 []] (by decide +kernel)
  exact ⟨_, _, hrun, by decide +kernel, by decide +kernel, linearizable hrun (by decide +kernel)⟩

end Network

end SpaceBattle
