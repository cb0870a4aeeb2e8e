import SpaceBattle.Games
import SpaceBattle.Refinement

/-!
# What clients can find out

Two states of the lobby are told apart by the answers to some sequence of requests and
disconnections, or by none. `Alike` is what a client can find out about a hall : who is
present, the terms of the games, which players sit where, and who has a seat at all. In which
game a viewer sits is not part of it, since no answer counts viewers and no limit but zero
refuses one.

`indistinguishable_iff` : two reachable states are indistinguishable exactly if their halls
are alike. One direction is a bisimulation, and the other a request, or two, that make the
difference : `CREATE_GAME` would be refused, a count goes down when a player leaves.
-/

namespace SpaceBattle

open Cpp RequestProcesser

/-- What clients can find out about a hall. -/
structure Alike (s s' : Hall) : Prop where
  present : s.present = s'.present
  games : s.games = s'.games
  players : ∀ p r, s.seats p = some (r, .player) ↔ s'.seats p = some (r, .player)
  free : ∀ p, s.seats p = none ↔ s'.seats p = none

namespace Alike

variable {s s' : Hall} (h : Alike s s')

include h

/-! ## Alike halls answer alike -/

theorem sitting_player (r : ℕ) : s.sitting r .player = s'.sitting r .player := by
  ext p
  exact h.players p r

theorem game (r : ℕ) : s.game r = s'.game r := by
  rw [Hall.game, Hall.game, h.games]

theorem ask {answer answer' : Terms → Response} (r : ℕ) (hsame : answer = answer') :
    s.ask r answer = s'.ask r answer' := by
  rw [Hall.ask, Hall.ask, h.game, hsame]

theorem admits_iff (r : ℕ) (terms : Terms) (role : Role) :
    s.Admits r terms role ↔ s'.Admits r terms role := by
  cases role with
  | player => rw [Hall.Admits, Hall.Admits, h.sitting_player]
  | viewer => rfl

theorem seat (p r : ℕ) (role : Role) : Alike (s.seat p r role) (s'.seat p r role) := by
  refine ⟨h.present, h.games, fun q r' => ?_, fun q => ?_⟩
  · by_cases hq : q = p
    · simp [Hall.seat, hq]
    · simpa [Hall.seat, hq] using h.players q r'
  · by_cases hq : q = p
    · simp [Hall.seat, hq]
    · simpa [Hall.seat, hq] using h.free q

theorem unseat (p : ℕ) : Alike (s.unseat p) (s'.unseat p) := by
  refine ⟨h.present, h.games, fun q r' => ?_, fun q => ?_⟩
  · by_cases hq : q = p
    · simp [Hall.unseat, hq]
    · simpa [Hall.unseat, hq] using h.players q r'
  · by_cases hq : q = p
    · simp [Hall.unseat, hq]
    · simpa [Hall.unseat, hq] using h.free q

theorem openGame (p : ℕ) (terms : Terms) : Alike (s.openGame p terms) (s'.openGame p terms) := by
  have hseat := h.seat p (s.games.length + 1) .player
  rw [Hall.openGame, Hall.openGame, ← h.games]
  exact ⟨hseat.present, rfl, hseat.players, hseat.free⟩

theorem withPresent {present present' : Set ℕ} (hsame : present = present') :
    Alike { s with present := present } { s' with present := present' } :=
  ⟨hsame, h.games, h.players, h.free⟩

theorem after (p : ℕ) (c : Command) : Alike (s.after p c) (s'.after p c) := by
  cases c with
  | login => exact h.withPresent (by rw [h.present])
  | leave => exact h.unseat p
  | create terms =>
    cases terms with
    | error => exact h
    | ok terms =>
      by_cases hfree : s.seats p = none
      · rw [Hall.after, Hall.after, if_pos hfree, if_pos ((h.free p).1 hfree)]
        exact h.openGame p terms
      · rw [Hall.after, Hall.after, if_neg hfree, if_neg fun hfree' => hfree ((h.free p).2 hfree')]
        exact h
  | join role room =>
    cases room with
    | none => exact h
    | some r =>
      have hiff : (s.seats p = none ∧ ∃ terms ∈ s.game r, s.Admits r terms role) ↔
          (s'.seats p = none ∧ ∃ terms ∈ s'.game r, s'.Admits r terms role) := by
        simp only [h.free p, h.game, h.admits_iff]
      by_cases hfree : s.seats p = none ∧ ∃ terms ∈ s.game r, s.Admits r terms role
      · rw [Hall.after, Hall.after, if_pos hfree, if_pos (hiff.1 hfree)]
        exact h.seat p r role
      · rw [Hall.after, Hall.after, if_neg hfree, if_neg fun hfree' => hfree (hiff.2 hfree')]
        exact h
  | say | listGames | countClients | countPlayers | countGames | askStatus | malformed | unknown =>
    exact h

theorem answer (p : ℕ) (c : Command) : s.answer p c = s'.answer p c := by
  classical
  cases c with
  | login => exact if_congr (by rw [h.present]) rfl rfl
  | say r =>
    rw [Hall.answer, Hall.answer, h.present, h.ask r rfl]
  | create terms => simp only [Hall.answer, ne_eq, h.free p, h.games]
  | listGames | countGames => simp only [Hall.answer, h.games]
  | countClients => simp only [Hall.answer, h.present]
  | countPlayers r => exact h.ask r (by simp only [h.sitting_player])
  | askStatus r => exact h.ask r rfl
  | join role room =>
    refine if_congr (not_congr (h.free p)) rfl ?_
    cases room with
    | none => rfl
    | some r =>
      refine h.ask r (funext fun terms => if_congr (h.admits_iff r terms role) ?_ rfl)
      rw [(h.seat p r role).sitting_player]
  | leave | malformed | unknown => rfl

end Alike

theorem Hall.enabled (s : Hall) (e : Lobby.Event) : ∃ s' o, hall.step s e = some (s', o) := by
  cases e <;> exact ⟨_, _, rfl⟩

/-- Alike halls stay alike. -/
theorem bisimulation_alike : Machine.Bisimulation hall hall Alike := by
  refine .of_enabled Hall.enabled ⟨rfl, rfl, fun _ _ => Iff.rfl, fun _ => Iff.rfl⟩
    fun {s t e s' o} h hstep => ?_
  cases e with
  | request p request =>
    obtain ⟨rfl, rfl⟩ : s.after p request.command = s' ∧ some (s.answer p request.command) = o := by
      simpa [hall, Hall.step] using hstep
    refine ⟨_, ?_, h.after p request.command⟩
    rw [h.answer p request.command]
    rfl
  | disconnect p =>
    obtain ⟨rfl, rfl⟩ : { s.unseat p with present := s.present \ {p} } = s' ∧ none = o := by
      simpa [hall, Hall.step] using hstep
    exact ⟨_, rfl, (h.unseat p).withPresent (by rw [h.present])⟩

/-! ## Experiments -/

/-- Some request asks for the command. -/
def Command.Askable (c : Command) : Prop :=
  ∃ request : Request, request.command = c

theorem askable_login : Command.login.Askable :=
  ⟨makeRequest .clientConnect [[]], rfl⟩

theorem askable_leave : Command.leave.Askable :=
  ⟨makeRequest .leave [], rfl⟩

theorem askable_countGames : Command.countGames.Askable :=
  ⟨makeRequest .getNbrGameCreated [], rfl⟩

/-- A join that names no game. -/
theorem askable_join_none : (Command.join .player none).Askable :=
  ⟨makeRequest .joinAsPlayer [], rfl⟩

section

variable {r : ℕ} (hr : r < 2 ^ 31)

include hr

theorem askable_join : (Command.join .player (some r)).Askable := by
  have hbody : (makeRequest .joinAsPlayer [digits r]).body.content = [digits r] := rfl
  exact ⟨makeRequest .joinAsPlayer [digits r], congrArg _ (addressed_idText hr hbody)⟩

theorem askable_countPlayers : (Command.countPlayers r).Askable := by
  have hbody : (makeRequest .playerLoggedIn [digits r]).body.content = [digits r] := rfl
  refine ⟨makeRequest .playerLoggedIn [digits r], ?_⟩
  change Request.naming _ _ = _
  rw [Request.naming, addressed_idText hr hbody]

end

theorem digits_injective : Function.Injective digits :=
  Function.LeftInverse.injective number_digits

/-- Answers that are equal have one status and one body. -/
theorem makeResponse_inj {code code' : StatusCode} {body body' : List Str}
    (h : makeResponse code body = makeResponse code' body') : code = code' ∧ body = body' := by
  have hcode : (makeResponse code body).Answers code' := by
    rw [h]
    exact answers_makeResponse.2 rfl
  have hbody := congrArg (·.body.content) h
  exact ⟨answers_makeResponse.1 hcode, by simpa using hbody⟩

namespace Houses

variable {rooms : RoomInterface} {s : Hall} (h : Houses rooms s)

include h

theorem exists_game {r : ℕ} {p : ℕ} {role : Role} (hseat : s.seats p = some (r, role)) :
    ∃ g ∈ rooms.gameRoom, g.roomId = r := by
  obtain ⟨g, hg, hid, -⟩ := (h.seats p r role).2 hseat
  exact ⟨g, hg, hid⟩

theorem game_eq {g : GameRoom} (hg : g ∈ rooms.gameRoom) : s.game g.roomId = some g.terms := by
  rw [← h.map_gameAt, h.wf.gameAt_eq_some hg]
  rfl

theorem finite_sitting (r : ℕ) (role : Role) : (s.sitting r role).Finite := by
  by_cases hr : ∃ g ∈ rooms.gameRoom, g.roomId = r
  · obtain ⟨g, hg, rfl⟩ := hr
    rw [h.sitting_eq hg]
    exact Finset.finite_toSet _
  · have hnone : s.sitting r role = ∅ :=
      Set.eq_empty_of_forall_notMem fun p hp => hr (h.exists_game hp)
    rw [hnone]
    exact Set.finite_empty

theorem ncard_sitting_le {g : GameRoom} (hg : g ∈ rooms.gameRoom) :
    (s.sitting g.roomId .player).ncard ≤ 2 := by
  rw [h.ncard_sitting hg]
  exact h.wf.players g hg

end Houses

theorem Hall.sitting_unseat (s : Hall) (p r : ℕ) (role : Role) :
    (s.unseat p).sitting r role = s.sitting r role \ {p} := by
  ext q
  by_cases hq : q = p <;> simp [Hall.unseat, Hall.sitting, hq]

/-- After some client has left, a game admits it as a player. -/
theorem Houses.exists_admitted {rooms : RoomInterface} {s : Hall} (h : Houses rooms s)
    {g : GameRoom} (hg : g ∈ rooms.gameRoom) :
    ∃ p, (s.unseat p).Admits g.roomId g.terms .player := by
  rcases (s.sitting g.roomId .player).eq_empty_or_nonempty with hnone | ⟨p, hp⟩
  · refine ⟨0, ?_⟩
    rw [Hall.Admits, Hall.sitting_unseat, hnone, Set.empty_sdiff, Set.ncard_empty]
    exact Nat.two_pos
  · refine ⟨p, ?_⟩
    rw [Hall.Admits, Hall.sitting_unseat]
    have hlt := Set.ncard_sdiff_singleton_lt_of_mem hp (h.finite_sitting _ _)
    have hle := h.ncard_sitting_le hg
    omega

section

variable {rooms rooms' : RoomInterface} {s s' : Hall} (hs : hall.Indistinguishable s s')

include hs

/-- What is asked is answered alike, and leaves the halls indistinguishable. -/
theorem tells {c : Command} (hc : c.Askable) (p : ℕ) :
    s.answer p c = s'.answer p c ∧ hall.Indistinguishable (s.after p c) (s'.after p c) := by
  obtain ⟨request, rfl⟩ := hc
  obtain ⟨hanswer, hafter⟩ := hs.step (e := .request p request) rfl rfl
  exact ⟨Option.some.inj hanswer, hafter⟩

theorem tells_unseat (p : ℕ) : hall.Indistinguishable (s.unseat p) (s'.unseat p) :=
  (tells hs askable_leave p).2

theorem mem_present_of_tells {p : ℕ} (hp : p ∈ s.present) : p ∈ s'.present := by
  have hanswer := (tells hs askable_login p).1
  rw [Hall.answer, Hall.answer, if_pos hp] at hanswer
  by_contra hnot
  rw [if_neg hnot] at hanswer
  cases (makeResponse_inj hanswer).1

theorem length_of_tells : s.games.length = s'.games.length := by
  have hanswer := (tells hs askable_countGames 0).1
  exact digits_injective (List.singleton_inj.1 (makeResponse_inj hanswer).2)

theorem eq_none_of_tells {p : ℕ} (hp : s.seats p = none) : s'.seats p = none := by
  have hanswer := (tells hs askable_join_none p).1
  rw [Hall.answer, Hall.answer, if_neg (not_not.2 hp)] at hanswer
  by_contra hnot
  rw [if_pos hnot] at hanswer
  cases (makeResponse_inj hanswer).1

/-- Both halls have the game, or neither. -/
theorem exists_game_of_tells {r : ℕ} {terms : Terms} (hgame : s.game r = some terms) :
    ∃ terms', s'.game r = some terms' := by
  have hlength := length_of_tells hs
  unfold Hall.game at hgame ⊢
  split at hgame
  · cases hgame
  · rw [if_neg ‹_›]
    obtain ⟨hlt, -⟩ := List.getElem?_eq_some_iff.1 hgame
    exact ⟨_, List.getElem?_eq_getElem (hlength ▸ hlt)⟩

/-- The number of players of a game. -/
theorem ncard_of_tells {r : ℕ} (hr : r < 2 ^ 31) {terms : Terms} (hgame : s.game r = some terms) :
    (s.sitting r .player).ncard = (s'.sitting r .player).ncard := by
  obtain ⟨terms', hgame'⟩ := exists_game_of_tells hs hgame
  have hanswer := (tells hs (askable_countPlayers hr) 0).1
  rw [Hall.answer, Hall.answer, Hall.ask, Hall.ask, hgame, hgame'] at hanswer
  exact digits_injective (List.singleton_inj.1 (makeResponse_inj hanswer).2)

/-- A player counts : when it leaves, its game has one less. -/
theorem player_of_tells (h : Houses rooms s) (hfew : rooms.gameRoom.length < 2 ^ 31) {p r : ℕ}
    (hp : s.seats p = some (r, .player)) : s'.seats p = some (r, .player) := by
  obtain ⟨g, hg, rfl⟩ := h.exists_game hp
  have hr : g.roomId < 2 ^ 31 := (h.wf.mem_gameIds.1 ⟨g, hg, rfl⟩).2.trans_lt hfew
  have hgame := h.game_eq hg
  have hbefore := ncard_of_tells hs hr hgame
  have hleft := ncard_of_tells (tells_unseat hs p) hr hgame
  rw [Hall.sitting_unseat, Hall.sitting_unseat] at hleft
  have hlt := Set.ncard_sdiff_singleton_lt_of_mem (show p ∈ s.sitting g.roomId .player from hp)
    (h.finite_sitting _ _)
  by_contra hnot
  have hsame : s'.sitting g.roomId .player \ {p} = s'.sitting g.roomId .player :=
    Set.sdiff_singleton_eq_self hnot
  rw [hsame] at hleft
  omega

/-- Whoever joins a game is told its terms. -/
theorem terms_of_tells (h : Houses rooms s) (hfew : rooms.gameRoom.length < 2 ^ 31)
    {g : GameRoom} (hg : g ∈ rooms.gameRoom) {terms : Terms}
    (hgame' : s'.game g.roomId = some terms) : g.terms = terms := by
  have hr : g.roomId < 2 ^ 31 := (h.wf.mem_gameIds.1 ⟨g, hg, rfl⟩).2.trans_lt hfew
  obtain ⟨p, hadmits⟩ := h.exists_admitted hg
  have hfree (t : Hall) : (t.unseat p).seats p = none := Function.update_self _ _ _
  have hanswer := (tells (tells_unseat hs p) (askable_join hr) p).1
  rw [Hall.answer, Hall.answer, if_neg (not_not.2 (hfree s)), if_neg (not_not.2 (hfree s'))]
    at hanswer
  have hask (t : Hall) (answer : Terms → Response) : (t.unseat p).ask g.roomId answer =
      ((t.game g.roomId).map answer).getD (makeResponse .roomNotFound []) := rfl
  rw [hask, hask, h.game_eq hg, hgame'] at hanswer
  simp only [Option.map_some, Option.getD_some, if_pos hadmits] at hanswer
  split at hanswer
  · obtain ⟨-, hbody⟩ := makeResponse_inj hanswer
    simp only [List.cons.injEq] at hbody
    obtain ⟨hname, hviewers, -, hlimit, -⟩ := hbody
    exact Terms.ext hname (digits_injective hviewers) (digits_injective hlimit)
  · cases (makeResponse_inj hanswer).1

end

/-- In halls of fewer than `2^31` games nothing but what clients can find out is told by
answers. -/
theorem alike_of_tells {rooms rooms' : RoomInterface} {s s' : Hall} (h : Houses rooms s)
    (h' : Houses rooms' s') (hfew : rooms.gameRoom.length < 2 ^ 31)
    (hs : hall.Indistinguishable s s') : Alike s s' := by
  have hlength : rooms.gameRoom.length = rooms'.gameRoom.length := by
    rw [← h.length_games, ← h'.length_games, length_of_tells hs]
  refine ⟨Set.ext fun p => ⟨mem_present_of_tells hs, mem_present_of_tells hs.symm⟩, ?_,
    fun p r => ⟨player_of_tells hs h hfew, player_of_tells hs.symm h' (hlength ▸ hfew)⟩,
    fun p => ⟨eq_none_of_tells hs, eq_none_of_tells hs.symm⟩⟩
  rw [← h.games, ← h'.games]
  refine List.ext_getElem (by simpa using hlength) fun i hi hi' => ?_
  rw [List.getElem_map, List.getElem_map]
  rw [List.length_map] at hi hi'
  have hid := h.roomId_eq (List.getElem?_eq_getElem hi)
  have hid' := h'.roomId_eq (List.getElem?_eq_getElem hi')
  refine terms_of_tells hs h hfew (List.getElem_mem hi) ?_
  rw [hid, ← hid', h'.game_eq (List.getElem_mem hi')]

/-- Two reachable states are indistinguishable if and only if the same clients are present,
the same terms were agreed on, the same players sit in the same games, and the same clients
have a seat. -/
theorem indistinguishable_iff {tr tr' : List (Lobby.Event × Option Response)} {l l' : Lobby}
    (h : lobby.Run tr l) (h' : lobby.Run tr' l') (hfew : l.rooms.gameRoom.length < 2 ^ 31) :
    lobby.Indistinguishable l l' ↔
      (∀ p, p ∈ l.rooms.general.client ↔ p ∈ l'.rooms.general.client) ∧
      l.rooms.gameRoom.map GameRoom.terms = l'.rooms.gameRoom.map GameRoom.terms ∧
      (∀ p r, l.rooms.Seated p r .player ↔ l'.rooms.Seated p r .player) ∧
      ∀ p, l.rooms.isInRoom p ↔ l'.rooms.isInRoom p := by
  obtain ⟨s, -, hs⟩ := bisimulation_hall.run h
  obtain ⟨s', -, hs'⟩ := bisimulation_hall.run h'
  have halike : hall.Indistinguishable s s' ↔ Alike s s' :=
    ⟨alike_of_tells hs hs' hfew, fun halike es => bisimulation_alike.exec_eq es halike⟩
  rw [bisimulation_hall.indistinguishable_congr hs hs', halike]
  refine ⟨fun halike => ⟨fun p => ?_, ?_, fun p r => ?_, fun p => ?_⟩, ?_⟩
  · rw [hs.present, hs'.present, halike.present]
  · rw [hs.games, hs'.games, halike.games]
  · rw [hs.seats, hs'.seats, halike.players]
  · rw [hs.isInRoom_iff, hs'.isInRoom_iff, ne_eq, ne_eq, halike.free p]
  · rintro ⟨hpresent, hgames, hplayers, hseated⟩
    refine ⟨Set.ext fun p => ?_, ?_, fun p r => ?_, fun p => not_iff_not.1 ?_⟩
    · rw [← hs.present, ← hs'.present, hpresent]
    · rw [← hs.games, ← hs'.games, hgames]
    · rw [← hs.seats, ← hs'.seats, hplayers]
    · rw [← ne_eq, ← ne_eq, ← hs.isInRoom_iff, ← hs'.isInRoom_iff, hseated]

/-- A viewer of one game or of the other. -/
theorem indistinguishable_iff_viewer : ∃ tr tr' l l', lobby.Run tr l ∧ lobby.Run tr' l' ∧
    l.rooms ≠ l'.rooms ∧ (lobby.Indistinguishable l l' ↔
      (∀ p, p ∈ l.rooms.general.client ↔ p ∈ l'.rooms.general.client) ∧
      l.rooms.gameRoom.map GameRoom.terms = l'.rooms.gameRoom.map GameRoom.terms ∧
      (∀ p r, l.rooms.Seated p r .player ↔ l'.rooms.Seated p r .player) ∧
      ∀ p, l.rooms.isInRoom p ↔ l'.rooms.isInRoom p) := by
  have hrun := Machine.run_of_isSome lobby
    [.request 1 (makeRequest .createGame [lit "duel", lit "1", lit "5", lit "30"]),
      .request 2 (makeRequest .createGame [lit "open", lit "1", lit "9", lit "0"]),
      .request 3 (makeRequest .joinAsViewer [lit "1"])] (by decide +kernel)
  have hrun' := Machine.run_of_isSome lobby
    [.request 1 (makeRequest .createGame [lit "duel", lit "1", lit "5", lit "30"]),
      .request 2 (makeRequest .createGame [lit "open", lit "1", lit "9", lit "0"]),
      .request 3 (makeRequest .joinAsViewer [lit "2"])] (by decide +kernel)
  exact ⟨_, _, _, _, hrun, hrun', by decide +kernel,
    indistinguishable_iff hrun hrun' (by decide +kernel)⟩

end SpaceBattle
