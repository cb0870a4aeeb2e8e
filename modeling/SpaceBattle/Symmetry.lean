import Mathlib.Logic.Equiv.Basic
import SpaceBattle.Refinement

/-!
# Clients are alike

The server knows its clients by their numbers, and nothing but being equal or not is ever
asked of two numbers : a run whose clients are renumbered, by any permutation, is a run, with
the same answers but for the number `CLIENT_CONNECTED` tells the client that logs in
(`lobby_rename`). So no client has a part of its own, and no answer depends on the numbers
`insert` happens to give.
-/

namespace SpaceBattle

open Cpp

/-! ## Renumbering -/

section

variable (π : Equiv.Perm ℕ)

/-- The event of the client with the new number. -/
def Lobby.Event.rename : Lobby.Event → Lobby.Event
  | .request p asked => .request (π p) asked
  | .disconnect p => .disconnect (π p)

/-- The answer to the client with the new number : a client that logs in is told its number. -/
def Response.rename (p : ℕ) (response : Response) : Response :=
  if response.Answers .clientConnected then
    makeResponse .clientConnected [digits (π p), digits 0]
  else response

/-- The event and its answer, with the new number. -/
def Lobby.renamed (x : Lobby.Event × Option Response) : Lobby.Event × Option Response :=
  (x.1.rename π, x.2.map fun response => response.rename π x.1.client)

/-- The hall with new numbers. -/
def Hall.rename (s : Hall) : Hall :=
  ⟨π '' s.present, s.games, s.seats ∘ π.symm⟩

end

theorem Response.rename_makeResponse (π : Equiv.Perm ℕ) (p : ℕ) {code : StatusCode}
    (hcode : code ≠ .clientConnected) (body : List Str) :
    (makeResponse code body).rename π p = makeResponse code body :=
  if_neg (by rwa [answers_makeResponse])

namespace Hall

variable (π : Equiv.Perm ℕ) (s : Hall)

@[simp] theorem mem_present_rename (p : ℕ) : π p ∈ (s.rename π).present ↔ p ∈ s.present :=
  π.injective.mem_set_image

@[simp] theorem seats_rename (p : ℕ) : (s.rename π).seats (π p) = s.seats p := by
  simp [rename]

@[simp] theorem game_rename (r : ℕ) : (s.rename π).game r = s.game r :=
  rfl

@[simp] theorem ncard_present_rename : (s.rename π).present.ncard = s.present.ncard :=
  Set.ncard_image_of_injective s.present π.injective

theorem sitting_rename (r : ℕ) (role : Role) :
    (s.rename π).sitting r role = π '' s.sitting r role := by
  ext p
  rw [Set.mem_image_equiv]
  exact Iff.rfl

@[simp] theorem ncard_sitting_rename (r : ℕ) (role : Role) :
    ((s.rename π).sitting r role).ncard = (s.sitting r role).ncard := by
  rw [sitting_rename, Set.ncard_image_of_injective _ π.injective]

@[simp] theorem admits_rename (r : ℕ) (terms : Terms) (role : Role) :
    (s.rename π).Admits r terms role ↔ s.Admits r terms role := by
  cases role with
  | player => rw [Admits, Admits, ncard_sitting_rename]
  | viewer => exact Iff.rfl

theorem update_seats_rename (p : ℕ) (seat : Option (ℕ × Role)) :
    Function.update s.seats p seat ∘ π.symm = Function.update (s.rename π).seats (π p) seat := by
  rw [Function.update_comp_equiv, Equiv.symm_symm]
  rfl

theorem seat_rename (p r : ℕ) (role : Role) :
    (s.seat p r role).rename π = (s.rename π).seat (π p) r role :=
  congrArg (mk _ _) (s.update_seats_rename π p _)

theorem unseat_rename (p : ℕ) : (s.unseat p).rename π = (s.rename π).unseat (π p) :=
  congrArg (mk _ _) (s.update_seats_rename π p _)

theorem openGame_rename (p : ℕ) (terms : Terms) :
    (s.openGame p terms).rename π = (s.rename π).openGame (π p) terms :=
  congrArg (mk _ _) (s.update_seats_rename π p _)

/-- A command does the same to the hall with new numbers. -/
theorem after_rename (p : ℕ) (c : Command) :
    (s.after p c).rename π = (s.rename π).after (π p) c := by
  cases c with
  | login => exact congrArg (mk · s.games (s.seats ∘ π.symm)) (Set.image_insert_eq)
  | leave => exact s.unseat_rename π p
  | create terms =>
    cases terms with
    | error => rfl
    | ok terms =>
      simp only [after, seats_rename]
      split_ifs
      · exact s.openGame_rename π p terms
      · rfl
  | join role room =>
    cases room with
    | none => rfl
    | some r =>
      have hiff : ((s.rename π).seats (π p) = none ∧ ∃ terms ∈ (s.rename π).game r,
          (s.rename π).Admits r terms role) ↔
            s.seats p = none ∧ ∃ terms ∈ s.game r, s.Admits r terms role := by simp
      by_cases hfree : s.seats p = none ∧ ∃ terms ∈ s.game r, s.Admits r terms role
      · rw [after, after, if_pos hfree, if_pos (hiff.2 hfree), s.seat_rename π p r role]
      · rw [after, after, if_neg hfree, if_neg (hiff.not.2 hfree)]
  | say | listGames | countClients | countPlayers | countGames | askStatus | malformed
  | unknown => rfl

theorem ask_rename (p r : ℕ) {answer : Terms → Response}
    (hanswer : ∀ terms, (answer terms).rename π p = answer terms) :
    (s.ask r answer).rename π p = (s.rename π).ask r answer := by
  rw [ask, ask, game_rename]
  cases s.game r with
  | none => exact Response.rename_makeResponse π p (by decide) []
  | some terms => exact hanswer terms

/-- And is answered the same, but for the number of the client that logs in. -/
theorem answer_rename (p : ℕ) (c : Command) :
    (s.answer p c).rename π p = (s.rename π).answer (π p) c := by
  have hplain {code : StatusCode} (body : List Str)
      (hcode : code ≠ .clientConnected := by decide) :
      (makeResponse code body).rename π p = makeResponse code body :=
    Response.rename_makeResponse π p hcode body
  have hite {a b : Prop} {_ : Decidable a} {_ : Decidable b} (hab : a ↔ b)
      {r₁ r₂ t₁ t₂ : Response} (h₁ : r₁.rename π p = t₁) (h₂ : r₂.rename π p = t₂) :
      (if a then r₁ else r₂).rename π p = if b then t₁ else t₂ :=
    (apply_ite (Response.rename π p) _ _ _).trans (if_congr hab h₁ h₂)
  have hpresent := (s.mem_present_rename π p).symm
  have hseated : s.seats p ≠ none ↔ (s.rename π).seats (π p) ≠ none := by rw [seats_rename]
  cases c with
  | login => exact hite hpresent (hplain []) (if_pos (answers_makeResponse.2 rfl))
  | say r =>
    refine hite Iff.rfl (hite hpresent (hplain []) (hplain [])) ?_
    exact s.ask_rename π p r fun _ => hplain []
  | leave => exact hplain []
  | create terms =>
    refine hite hseated (hplain []) ?_
    cases terms with
    | error k => exact hplain _
    | ok => exact hplain _
  | listGames => exact hplain _
  | countClients =>
    rw [answer, answer, ncard_present_rename]
    exact hplain _
  | join role room =>
    refine hite hseated (hplain []) ?_
    cases room with
    | none => exact hplain _
    | some r =>
      dsimp only
      rw [← seat_rename]
      simp only [ncard_sitting_rename]
      rw [ask, ask, game_rename]
      cases s.game r with
      | none => exact hplain []
      | some terms => exact hite (s.admits_rename π r terms role).symm (hplain _) (hplain [])
  | countPlayers r =>
    rw [answer, answer, ncard_sitting_rename]
    exact s.ask_rename π p r fun _ => hplain _
  | countGames => exact hplain _
  | askStatus r => exact s.ask_rename π p r fun _ => hplain _
  | malformed k => exact hplain _
  | unknown => exact hplain _

/-- The hall with new numbers does what the hall does. -/
theorem refinement_rename : Machine.Refinement hall hall (fun _ => True) (Hall.rename π)
    fun x => some (Lobby.renamed π x) where
  init := trivial
  map_init := by
    refine congrArg (mk · [] _) ?_
    exact Set.image_empty _
  step := by
    rintro - s e s' o - - hstep
    refine ⟨trivial, fun h => (by cases h), fun x hx => ?_⟩
    obtain rfl := Option.some.inj hx
    cases e with
    | request p asked =>
      obtain ⟨rfl, rfl⟩ := Prod.mk.inj (Option.some.inj hstep)
      refine congrArg some (Prod.ext ?_ (congrArg some ?_))
      · exact (s.after_rename π p asked.command).symm
      · exact (s.answer_rename π p asked.command).symm
    | disconnect p =>
      obtain ⟨rfl, rfl⟩ := Prod.mk.inj (Option.some.inj hstep)
      have hpresent : π '' s.present \ {π p} = π '' (s.present \ {p}) := by
        rw [Set.image_sdiff π.injective, Set.image_singleton]
      have hafter : ({ (s.rename π).unseat (π p) with
          present := (s.rename π).present \ {π p} } : Hall) =
            ({ s.unseat p with present := s.present \ {p} } : Hall).rename π :=
        congrArg₂ (mk · s.games ·) hpresent (s.update_seats_rename π p none).symm
      exact congrArg some (Prod.ext hafter rfl)

end Hall

/-- The clients can be renumbered : a run with new numbers is a run, with the same answers but
for the numbers told, and ends in the same rooms with the new numbers in them. -/
theorem lobby_rename (π : Equiv.Perm ℕ) {tr : List (Lobby.Event × Option Response)} {l : Lobby}
    (h : lobby.Run tr l) : ∃ l', lobby.Run (tr.map (Lobby.renamed π)) l' ∧
      ∃ s, Houses l.rooms s ∧ Houses l'.rooms (s.rename π) := by
  obtain ⟨s, hs, hhouses⟩ := bisimulation_hall.run h
  have hrenamed := ((Hall.refinement_rename π).run hs).2
  rw [List.filterMap_eq_map'] at hrenamed
  obtain ⟨l', hl', hhouses'⟩ := bisimulation_hall.symm.run hrenamed
  exact ⟨l', hl', s, hhouses, hhouses'⟩

/-- Client 1 creates a game and client 2 joins it; with the numbers swapped they are told the
other numbers, and the same of the game. -/
theorem lobby_rename_swap : ∃ tr l l', lobby.Run tr l ∧
    lobby.Run (tr.map (Lobby.renamed (Equiv.swap 1 2))) l' ∧
    ((tr.filterMap Prod.snd).map fun o => o.body.content) =
      [[lit "1", lit "0"], [lit "1"], [lit "2", lit "0"],
        [lit "duel", lit "5", lit "2", lit "30", lit "0"]] ∧
    (((tr.map (Lobby.renamed (Equiv.swap 1 2))).filterMap Prod.snd).map fun o => o.body.content) =
      [[lit "2", lit "0"], [lit "1"], [lit "1", lit "0"],
        [lit "duel", lit "5", lit "2", lit "30", lit "0"]] := by
  have hrun := Machine.run_of_isSome lobby
    [.request 1 (makeRequest .clientConnect [lit "ada"]),
      .request 1 (makeRequest .createGame [lit "duel", lit "1", lit "5", lit "30"]),
      .request 2 (makeRequest .clientConnect [lit "bob"]),
      .request 2 (makeRequest .joinAsPlayer [lit "1"])] (by decide +kernel)
  obtain ⟨l', hrun', -⟩ := lobby_rename (Equiv.swap 1 2) hrun
  exact ⟨_, _, l', hrun, hrun', by decide +kernel, by decide +kernel⟩

end SpaceBattle
