import SpaceBattle.Games

/-!
# Creating a game

`create_game` takes the number of viewers as an `int` and stores it as a `std::size_t`,
and its test of the viewer flag, the character `'0'` or `'1'`, is true of both. So a
negative number is accepted, as a huge limit, and a game asked for without viewers keeps
the number in its request.

`createsAsAsked_iff` : a request of a free client is accepted exactly if it is valid, and
recorded as it asks, if and only if its number of viewers is not negative, and is zero
unless it asks for viewers.
-/

namespace SpaceBattle

open Cpp RequestProcesser RoomInterface

/-- The game is created as the request asks, at the end of the trace `tr` : with the flag
`"1"` the number of viewers is the limit, with `"0"` the limit is zero, and no viewer ever
sits in the room. -/
def RecordedAsAsked (tr : List (Lobby.Event × Option Response)) (s : Lobby) (p : ℕ)
    (name flag : Str) (n l : ℤ) (s' : Lobby) : Prop :=
  ∃ g : GameRoom, s'.rooms = { s.rooms with gameRoom := s.rooms.gameRoom ++ [g] } ∧
    g.name = name ∧ g.playerIds = [p] ∧ g.viewerIds = [] ∧ (g.timeLimit : ℤ) = l ∧
    (g.viewerLimit : ℤ) = (if flag = lit "1" then n else 0) ∧
    (flag = lit "0" → ∀ tr' s'', lobby.Run (tr ++ tr') s'' → ∀ g'',
      s''.rooms.gameRoom[s.rooms.gameRoom.length]? = some g'' → g''.viewerIds = [])

/-- `GAME_CREATED` answers exactly the valid requests, and records them as they ask. `tr`
is the trace that ends with the request. -/
def CreatesAsAsked (tr : List (Lobby.Event × Option Response)) (s : Lobby) (p : ℕ)
    (request : Request) (response : Response) (s' : Lobby) : Prop :=
  (response.Answers .gameCreated ↔ ∃ name flag n l, request.Describes name flag n l ∧ 0 ≤ n) ∧
  (response.Answers .gameCreated → ∃ name flag n l, request.Describes name flag n l ∧
    RecordedAsAsked tr s p name flag n l s')

/-- The four strings fix what they describe. -/
theorem Request.Describes.unique {request : Request} {name name' flag flag' : Str} {n n' l l' : ℤ}
    (h : request.Describes name flag n l) (h' : request.Describes name' flag' n' l') :
    name = name' ∧ flag = flag' ∧ n = n' ∧ l = l' := by
  obtain ⟨viewers, limit, hbody, hviewers, hlimit, -⟩ := h
  obtain ⟨viewers', limit', hbody', hviewers', hlimit', -⟩ := h'
  rw [hbody] at hbody'
  simp only [List.cons.injEq, and_true] at hbody'
  obtain ⟨rfl, rfl, rfl, rfl⟩ := hbody'
  exact ⟨rfl, rfl, Except.ok.inj (hviewers.symm.trans hviewers'),
    Except.ok.inj (hlimit.symm.trans hlimit')⟩

/-- The step of a free client's request for a game. -/
theorem Lobby.step_createGame_cases {s s' : Lobby} {p : ℕ} {request : Request}
    {response : Response} (hop : request.header.opCode = OpCode.createGame.code)
    (hfree : ¬s.rooms.isInRoom p)
    (hstep : lobby.step s (.request p request) = some (s', some response)) :
    (∃ name flag n l, request.Describes name flag n l ∧ response.Answers .gameCreated ∧
      s'.rooms = (s.rooms.createGame p name (toSize n) (toSize l)).2) ∨
    (¬∃ name flag n l, request.Describes name flag n l) ∧ ¬response.Answers .gameCreated ∧
      s' = s := by
  rcases process_createGame_cases (s.processer p) hop hfree with
    ⟨name, flag, n, l, hdescribes, h⟩ | ⟨hnone, k, hk, h⟩
  · rw [step_of_process h] at hstep
    simp only [Option.some.injEq, Prod.mk.injEq] at hstep
    obtain ⟨rfl, rfl⟩ := hstep
    exact Or.inl ⟨name, flag, n, l, hdescribes, by simp, rfl⟩
  · rw [step_answer h] at hstep
    simp only [Option.some.injEq, Prod.mk.injEq] at hstep
    obtain ⟨rfl, rfl⟩ := hstep
    exact Or.inr ⟨hnone, by simp [formatError], rfl⟩

/-- A room with no place for viewers has none. -/
theorem viewerIds_of_run {tr : List (Lobby.Event × Option Response)} {s : Lobby}
    (h : lobby.Run tr s) : ∀ g ∈ s.rooms.gameRoom, g.viewerLimit = 0 → g.viewerIds = [] := by
  refine Lobby.forall_game_of_run (fun _ _ _ _ _ _ => rfl) (fun g p message hg => hg)
    (fun g p role hplace hg hzero => ?_) (fun g p hg hzero => ?_) h
  · cases role with
    | player => exact hg hzero
    | viewer =>
      have hlimit : g.viewerLimit ≠ 0 := by simpa [GameRoom.hasPlace] using hplace
      exact absurd hzero hlimit
  · have hempty : g.viewerIds = [] := hg hzero
    simp [GameRoom.without, hempty]

/-- A room created without a place for viewers never has one. -/
theorem never_viewed {tr tr' : List (Lobby.Event × Option Response)} {s s' : Lobby}
    (h : lobby.Run tr s) (h' : lobby.Run (tr ++ tr') s') {i : ℕ} {g g' : GameRoom}
    (hg : s.rooms.gameRoom[i]? = some g) (hzero : g.viewerLimit = 0)
    (hg' : s'.rooms.gameRoom[i]? = some g') : g'.viewerIds = [] := by
  have hrecord : (gamesCreated tr)[i]? = some g.record := by
    rw [← records_of_run h, List.getElem?_map, hg, Option.map_some]
  have hrecord' : (gamesCreated (tr ++ tr'))[i]? = some g'.record := by
    rw [← records_of_run h', List.getElem?_map, hg', Option.map_some]
  rw [gamesCreated_append, List.getElem?_append_left (List.getElem?_eq_some_iff.1 hrecord).1,
    hrecord, Option.some.injEq] at hrecord'
  have hlimit : g.viewerLimit = g'.viewerLimit := congrArg GameRecord.viewerLimit hrecord'
  exact viewerIds_of_run h' g' (List.mem_of_getElem? hg') (hlimit.symm.trans hzero)

theorem toSize_of_nonneg {n : ℤ} (h : IsInt n) (hpos : 0 ≤ n) : (toSize n : ℤ) = n := by
  have hhigh := h.2
  unfold toSize
  omega

theorem Request.Describes.isInt {request : Request} {name flag : Str} {n l : ℤ}
    (h : request.Describes name flag n l) : IsInt n ∧ IsInt l := by
  obtain ⟨viewers, limit, -, hviewers, hlimit, -⟩ := h
  exact ⟨(stoi_eq_ok_iff.1 hviewers).2, (stoi_eq_ok_iff.1 hlimit).2⟩

section

variable {tr : List (Lobby.Event × Option Response)} {s s' : Lobby} {p : ℕ} {request : Request}
  {name flag : Str} {n l : ℤ} (hdescribes : request.Describes name flag n l)
  (hrooms : s'.rooms = (s.rooms.createGame p name (toSize n) (toSize l)).2) (hpos : 0 ≤ n)

include hdescribes hrooms hpos

/-- A number of viewers that agrees with the flag is recorded as it is asked. -/
theorem recordedAsAsked_of_flag (h' : lobby.Run tr s') (hzero : flag = lit "0" → n = 0) :
    RecordedAsAsked tr s p name flag n l s' := by
  obtain ⟨hn, hl⟩ := hdescribes.isInt
  obtain ⟨-, -, -, -, -, hflag, hlimit⟩ := hdescribes
  rw [createGame_snd] at hrooms
  refine ⟨_, hrooms, rfl, rfl, rfl, toSize_of_nonneg hl (by omega), ?_,
    fun hflag₀ tr' s'' h'' g'' hg'' => ?_⟩
  · rcases hflag with rfl | rfl
    · rw [if_neg (by decide), ← hzero rfl]
      exact toSize_of_nonneg hn hpos
    · exact toSize_of_nonneg hn hpos
  · have hroom : s'.rooms.gameRoom[s.rooms.gameRoom.length]? = some
        ((GameRoom.new (s.rooms.gameRoom.length + 1) name (toSize n) (toSize l)).seat p
          .player) := by
      rw [hrooms]
      simp
    refine never_viewed h' h'' hroom ?_ hg''
    simp [hzero hflag₀, GameRoom.new, GameRoom.seat, toSize]

/-- The room keeps the number of viewers with either flag. -/
theorem RecordedAsAsked.eq_zero (h : RecordedAsAsked tr s p name flag n l s')
    (hflag : flag = lit "0") : n = 0 := by
  obtain ⟨g, hg, -, -, -, -, hlimit, -⟩ := h
  rw [hrooms, createGame_snd] at hg
  obtain rfl := List.singleton_inj.1
    (List.append_cancel_left (congrArg RoomInterface.gameRoom hg))
  rw [if_neg (by rw [hflag]; decide)] at hlimit
  exact (toSize_of_nonneg hdescribes.isInt.1 hpos).symm.trans hlimit

end

/-- After every run, a request of a free client is answered. It is accepted exactly if it is
valid, and recorded as it asks, if and only if its number of viewers is not negative, and is
zero if the flag is `"0"`. -/
theorem createsAsAsked_iff {tr : List (Lobby.Event × Option Response)} {s : Lobby}
    (h : lobby.Run tr s) {p : ℕ} (hfree : ¬s.rooms.isInRoom p) {request : Request}
    (hop : request.header.opCode = OpCode.createGame.code) : ∃ s' response,
      lobby.step s (.request p request) = some (s', some response) ∧
      (CreatesAsAsked (tr ++ [(.request p request, some response)]) s p request response s' ↔
        ∀ name flag n l, request.Describes name flag n l →
          0 ≤ n ∧ (flag = lit "0" → n = 0)) := by
  obtain ⟨s', o, hstep⟩ := Lobby.enabled s (.request p request)
  obtain ⟨response, -, rfl, -⟩ := Lobby.step_request hstep
  refine ⟨s', response, hstep, ?_⟩
  rcases Lobby.step_createGame_cases hop hfree hstep with
    ⟨name, flag, n, l, hdescribes, hanswer, hrooms⟩ | ⟨hnone, hanswer, rfl⟩
  · constructor
    · rintro ⟨haccepted, hrecorded⟩ name' flag' n' l' hdescribes'
      obtain ⟨rfl, rfl, rfl, rfl⟩ := hdescribes.unique hdescribes'
      obtain ⟨_, _, _, _, hdescribes₁, hpos⟩ := haccepted.1 hanswer
      obtain ⟨-, -, rfl, -⟩ := hdescribes.unique hdescribes₁
      obtain ⟨_, _, _, _, hdescribes₂, hrec⟩ := hrecorded hanswer
      obtain ⟨rfl, rfl, rfl, rfl⟩ := hdescribes.unique hdescribes₂
      exact ⟨hpos, hrec.eq_zero hdescribes hrooms hpos⟩
    · intro hsound
      obtain ⟨hpos, hzero⟩ := hsound name flag n l hdescribes
      exact ⟨⟨fun _ => ⟨name, flag, n, l, hdescribes, hpos⟩, fun _ => hanswer⟩,
        fun _ => ⟨name, flag, n, l, hdescribes,
          recordedAsAsked_of_flag hdescribes hrooms hpos (h.snoc hstep) hzero⟩⟩
  · refine ⟨fun _ name flag n l hdescribes => absurd ⟨name, flag, n, l, hdescribes⟩ hnone,
      fun _ => ⟨⟨fun h => absurd h hanswer, ?_⟩, fun h => absurd h hanswer⟩⟩
    rintro ⟨name, flag, n, l, hdescribes, -⟩
    exact absurd ⟨name, flag, n, l, hdescribes⟩ hnone

/-- What a request with four given strings describes. -/
theorem eq_of_describes_makeRequest {name flag viewers limit name' flag' : Str} {n l n' l' : ℤ}
    (hviewers : stoi viewers = .ok n) (hlimit : stoi limit = .ok l)
    (h : (makeRequest .createGame [name, flag, viewers, limit]).Describes name' flag' n' l') :
    name' = name ∧ flag' = flag ∧ n' = n ∧ l' = l := by
  obtain ⟨viewers', limit', hbody, hviewers', hlimit', -⟩ := h
  simp only [makeRequest, Body.content_ofList, List.cons.injEq, and_true] at hbody
  obtain ⟨rfl, rfl, rfl, rfl⟩ := hbody
  exact ⟨rfl, rfl, Except.ok.inj (hviewers'.symm.trans hviewers),
    Except.ok.inj (hlimit'.symm.trans hlimit)⟩

/-- A game with five viewers. -/
theorem createsAsAsked_iff_five : ∃ s' response,
    lobby.step lobby.init (.request 1
      (makeRequest .createGame [lit "duel", lit "1", lit "5", lit "30"])) =
        some (s', some response) ∧
    CreatesAsAsked [(.request 1
      (makeRequest .createGame [lit "duel", lit "1", lit "5", lit "30"]), some response)]
      lobby.init 1 (makeRequest .createGame [lit "duel", lit "1", lit "5", lit "30"])
      response s' := by
  obtain ⟨s', response, hstep, hiff⟩ := createsAsAsked_iff .nil (by decide)
    (by decide : (makeRequest .createGame [lit "duel", lit "1", lit "5",
      lit "30"]).header.opCode = OpCode.createGame.code) (p := 1)
  refine ⟨s', response, hstep, hiff.2 ?_⟩
  intro name flag n l hdescribes
  obtain ⟨-, rfl, rfl, -⟩ := eq_of_describes_makeRequest (n := 5) (l := 30) (by decide)
    (by decide) hdescribes
  decide

/-- A game asked for without viewers keeps the five viewers its request names. -/
theorem created_with_viewers : ∃ s' response, lobby.Run [] lobby.init ∧
    lobby.step lobby.init (.request 1
      (makeRequest .createGame [lit "duel", lit "0", lit "5", lit "30"])) =
        some (s', some response) ∧
    ¬CreatesAsAsked [(.request 1
      (makeRequest .createGame [lit "duel", lit "0", lit "5", lit "30"]), some response)]
      lobby.init 1 (makeRequest .createGame [lit "duel", lit "0", lit "5", lit "30"])
      response s' := by
  obtain ⟨s', o, hstep⟩ := Lobby.enabled lobby.init
    (.request 1 (makeRequest .createGame [lit "duel", lit "0", lit "5", lit "30"]))
  obtain ⟨response, -, rfl, -⟩ := Lobby.step_request hstep
  refine ⟨s', response, .nil, hstep, ?_⟩
  rintro ⟨-, hrecorded⟩
  rcases Lobby.step_createGame_cases (by decide) (by decide) hstep with
    ⟨name, flag, n, l, hdescribes, hanswer, hrooms⟩ | ⟨hnone, -⟩
  · obtain ⟨rfl, rfl, rfl, rfl⟩ := eq_of_describes_makeRequest (n := 5) (l := 30) (by decide)
      (by decide) hdescribes
    obtain ⟨_, _, _, _, hdescribes', hrec⟩ := hrecorded hanswer
    obtain ⟨rfl, rfl, rfl, rfl⟩ := hdescribes.unique hdescribes'
    exact absurd (hrec.eq_zero hdescribes hrooms (by decide) rfl) (by decide)
  · exact hnone ⟨lit "duel", lit "0", 5, 30, lit "5", lit "30", by decide⟩

end SpaceBattle
