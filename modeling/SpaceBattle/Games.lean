import SpaceBattle.Decisions

/-!
# The games created

`gamesCreated` reads the games off the trace : each `GAME_CREATED` answer adds one, with
the id the answer gives and the name and limits of its request. Nothing removes a game
room or changes its id, name or limits, so the rooms of a run are these games, in order
(`records_of_run`). `games_stable` : ids are unique, the lists the server gives out only
grow, and an id, once given out, addresses the same room at any later time.
-/

namespace SpaceBattle

open Cpp RequestProcesser RoomInterface

/-! ## Records -/

/-- What never changes in a game room, its id as the server writes it. -/
structure GameRecord where
  idText : Str
  name : Str
  viewerLimit : ℕ
  timeLimit : ℕ
  deriving DecidableEq

def GameRoom.record (g : GameRoom) : GameRecord :=
  ⟨digits g.roomId, g.name, g.viewerLimit, g.timeLimit⟩

/-- The number the string at the index denotes. -/
def Request.number (request : Request) (i : ℕ) : ℕ :=
  match stoi (request.body.content.getD i []) with
  | .ok n => toSize n
  | .error _ => 0

/-- The game an event and its answer create. -/
def gameCreated : Lobby.Event × Option Response → Option GameRecord
  | (.request _ request, some response) =>
    if response.Answers .gameCreated then
      some ⟨response.body.content.headD [], request.body.content.headD [], request.number 2,
        request.number 3⟩
    else none
  | _ => none

/-- The games of a trace, in the order of their creation. -/
def gamesCreated (tr : List (Lobby.Event × Option Response)) : List GameRecord :=
  tr.filterMap gameCreated

/-- The list `GET_GAME_INFO` gives of the games. -/
def listing (games : List GameRecord) : List Str :=
  games.flatMap fun x => [x.idText, x.name]

theorem gamesCreated_append (tr tr' : List (Lobby.Event × Option Response)) :
    gamesCreated (tr ++ tr') = gamesCreated tr ++ gamesCreated tr' :=
  List.filterMap_append

theorem gamesCreated_singleton (x : Lobby.Event × Option Response) :
    gamesCreated [x] = (gameCreated x).toList := by
  rw [gamesCreated, List.filterMap_cons]
  cases gameCreated x <;> rfl

/-! ## The rooms are the games created -/

theorem record_seat (g : GameRoom) (p : ℕ) (role : Role) : (g.seat p role).record = g.record := by
  cases role <;> rfl

theorem records_mapGame (rooms : RoomInterface) {F : GameRoom → GameRoom}
    (hF : ∀ g, (F g).record = g.record) :
    (rooms.mapGame F).gameRoom.map GameRoom.record = rooms.gameRoom.map GameRoom.record := by
  rw [mapGame, List.map_map]
  exact List.map_congr_left fun g _ => hF g

/-- A step adds the record of the game it creates, and keeps the others. -/
theorem records_step {s s' : Lobby} {e : Lobby.Event} {o : Option Response}
    (wf : s.rooms.WellFormed) (h : lobby.step s e = some (s', o)) :
    s'.rooms.gameRoom.map GameRoom.record =
      s.rooms.gameRoom.map GameRoom.record ++ (gameCreated (e, o)).toList := by
  rcases Lobby.step_cases h with
    ⟨p, request, response, rp, rfl, rfl, hprocess, ho⟩ | ⟨p, rfl, rfl, hrooms⟩
  · have hsame {rooms' : RoomInterface} (hnot : ¬response.Answers .gameCreated)
        (hrecords : rooms'.gameRoom.map GameRoom.record = s.rooms.gameRoom.map GameRoom.record) :
        rooms'.gameRoom.map GameRoom.record = s.rooms.gameRoom.map GameRoom.record ++
          (gameCreated (.request p request, some response)).toList := by
      simp [gameCreated, hnot, hrecords]
    generalize hs' : s'.rooms = rooms' at ho
    cases ho with
    | connected | saidInGeneral => exact hsame (by simp) rfl
    | saidInGame _ _ _ _ hit =>
      rw [wf.assign_eq_mapGame hit (·.say _ _)]
      exact hsame (by simp) (records_mapGame _ (atGame_congr GameRoom.record fun _ => rfl))
    | left =>
      rw [wf.removeFromGame_eq_mapGame]
      exact hsame (by simp) (records_mapGame _ fun _ => rfl)
    | joined _ _ _ _ hit =>
      rw [wf.assign_eq_mapGame hit (·.seat _ _)]
      exact hsame (by simp)
        (records_mapGame _ (atGame_congr GameRoom.record fun g => record_seat g _ _))
    | unchanged hcode => exact hsame (by simpa using ne_of_reportsChange hcode rfl) rfl
    | created _ _ _ hop hfree =>
      rcases process_createGame_cases _ hop hfree with
        ⟨name, flag, n, l, ⟨viewers, limit, hbody, hviewers, hlimit, -⟩, h⟩ | ⟨-, k, -, h⟩
      · rw [hprocess, hs'] at h
        simp only [Except.ok.injEq, Prod.mk.injEq, true_and] at h
        rw [h.2, h.1, createGame_snd]
        simp [gameCreated, Request.number, hbody, hviewers, hlimit, GameRoom.record, GameRoom.seat,
          GameRoom.new, Room.new, RoomInterface.createGame]
      · rw [hprocess] at h
        have hresp := (Prod.mk.inj (Except.ok.inj h)).1
        have hcode := congrArg (·.Answers .gameCreated) hresp
        simp [formatError] at hcode
  · rw [hrooms, wf.removeFromRoom_eq]
    simpa [gameCreated] using records_mapGame { s.rooms with
      general := (s.rooms.general.removeClient p).2 } fun g => (rfl : (g.without p).record = _)

/-- The game rooms of a run are the games its trace creates. -/
theorem records_of_run {tr : List (Lobby.Event × Option Response)} {s : Lobby}
    (h : lobby.Run tr s) : s.rooms.gameRoom.map GameRoom.record = gamesCreated tr :=
  h.invariant_trace (I := fun tr s => s.rooms.gameRoom.map GameRoom.record = gamesCreated tr) rfl
    fun tr s e s' o hr hs hstep => by
      rw [records_step (Lobby.wellFormed_of_run hr) hstep, hs, gamesCreated_append,
        gamesCreated_singleton]

theorem length_gamesCreated {tr : List (Lobby.Event × Option Response)} {s : Lobby}
    (h : lobby.Run tr s) : (gamesCreated tr).length = s.rooms.gameRoom.length := by
  rw [← records_of_run h, List.length_map]

/-- The game created at a position is the room at that position, and its id is the
position, counted from one. -/
theorem room_of_gamesCreated {tr : List (Lobby.Event × Option Response)} {s : Lobby}
    (h : lobby.Run tr s) {i : ℕ} {x : GameRecord} (hx : (gamesCreated tr)[i]? = some x) :
    ∃ g, s.rooms.gameRoom[i]? = some g ∧ g.record = x ∧ g.roomId = i + 1 := by
  rw [← records_of_run h, List.getElem?_map, Option.map_eq_some_iff] at hx
  obtain ⟨g, hg, rfl⟩ := hx
  have hid := congrArg (·[i]?) (Lobby.wellFormed_of_run h).gameIds
  simp only [List.getElem?_map, hg, Option.map_some] at hid
  obtain ⟨hi, -⟩ := List.getElem?_eq_some_iff.1 hg
  rw [List.getElem?_range' hi, Option.some.injEq] at hid
  exact ⟨g, hg, rfl, by omega⟩

/-! ## Lists and ids over time -/

/-- `GET_GAME_INFO` is answered with the games created so far. -/
theorem getGameInfo_of_run {tr : List (Lobby.Event × Option Response)} {s : Lobby}
    (h : lobby.Run tr s) :
    RequestProcesser.getGameInfo s.rooms = makeResponse .listGame (listing (gamesCreated tr)) := by
  rw [← records_of_run h, RequestProcesser.getGameInfo, listing, List.flatMap_map,
    RoomInterface.getGameInfo, List.flatMap_map]
  rfl

theorem listing_mono {games games' : List GameRecord} (h : games <+: games') :
    listing games <+: listing games' := by
  obtain ⟨rest, rfl⟩ := h
  exact ⟨listing rest, List.flatMap_append.symm⟩

/-- The id of a game, sent back as the server wrote it, addresses the game. -/
theorem addressed_idText {request : Request} {r : ℕ} (hr : r < 2 ^ 31)
    (hbody : request.body.content = [digits r]) : request.addressed 1 = some r := by
  have hsize : toSize (r : ℤ) = r := by
    unfold toSize
    omega
  exact Request.addressed_one_eq_some_iff.2 ⟨digits r, r, hbody, stoi_digits hr, hsize⟩

/-- Over every run that creates fewer than `2^31` games : the ids of the game rooms are
different, and different from the general room's; `GET_GAME_INFO` lists the games created
so far, a list that only grows, and `GET_NBR_GAME_CREATED` is their number; and the id of
a game created earlier addresses the room at that game's position, which has the name and
the limits it was created with, in each request that takes an id. -/
theorem games_stable {tr tr' : List (Lobby.Event × Option Response)} {s s' : Lobby}
    (h : lobby.Run tr s) (h' : lobby.Run (tr ++ tr') s')
    (hfew : (gamesCreated (tr ++ tr')).length < 2 ^ 31) :
    ((s'.rooms.gameRoom.map (·.roomId)).Nodup ∧
      ∀ g ∈ s'.rooms.gameRoom, g.roomId ≠ s'.rooms.general.roomId) ∧
    (listing (gamesCreated tr) <+: listing (gamesCreated (tr ++ tr')) ∧
      ∀ p request,
        (request.header.opCode = OpCode.getGameInfo.code →
          lobby.step s (.request p request) =
              some (s, some (makeResponse .listGame (listing (gamesCreated tr)))) ∧
            lobby.step s' (.request p request) =
              some (s', some (makeResponse .listGame (listing (gamesCreated (tr ++ tr')))))) ∧
        (request.header.opCode = OpCode.getNbrGameCreated.code →
          lobby.step s' (.request p request) = some (s', some
            (makeResponse .numberOfGame [digits (gamesCreated (tr ++ tr')).length])))) ∧
    ∀ (i : ℕ) (x : GameRecord), (gamesCreated tr)[i]? = some x →
      s.rooms.gameRoom[i]?.map GameRoom.record = some x ∧
      ∃ g, s'.rooms.gameRoom[i]? = some g ∧ g.record = x ∧
        ∀ p request, request.body.content = [x.idText] →
          (request.addressed 1 = some g.roomId ∧ s'.rooms.gameAt g.roomId = some g) ∧
          (request.header.opCode = OpCode.playerLoggedIn.code →
            lobby.step s' (.request p request) =
              some (s', some (makeResponse .playerNumber [digits g.playerIds.length]))) ∧
          (request.header.opCode = OpCode.getGameStatus.code →
            lobby.step s' (.request p request) =
              some (s', some (makeResponse .gameStatus [digits g.roomStatus.toUnsigned]))) ∧
          ∀ role, request.header.opCode = (joinCode role).code →
            lobby.step s' (.request p request) = some (
              if s'.rooms.isInRoom p then (s', some (makeResponse .permissionDenied []))
              else if g.hasPlace role then
                ({ s' with rooms := s'.rooms.mapGame (atGame g.roomId (·.seat p role)) },
                  some (makeResponse .clientJoinGame
                    (gameInformation (g.seat p role).getGameInfo)))
              else (s', some (makeResponse .tooManyClients []))) := by
  have wf := Lobby.wellFormed_of_run h'
  have hgrow : gamesCreated tr <+: gamesCreated (tr ++ tr') :=
    ⟨_, (gamesCreated_append tr tr').symm⟩
  refine ⟨⟨wf.nodup_gameIds, fun g hg => wf.ne_general hg⟩, ⟨listing_mono hgrow,
    fun p request => ⟨fun hop => ⟨?_, ?_⟩, fun hop => ?_⟩⟩, fun i x hx => ⟨?_, ?_⟩⟩
  · rw [← getGameInfo_of_run h]
    exact Lobby.step_answer (process_getGameInfo hop)
  · rw [← getGameInfo_of_run h']
    exact Lobby.step_answer (process_getGameInfo hop)
  · rw [length_gamesCreated h']
    exact Lobby.step_answer (process_getGameCreated hop)
  · obtain ⟨g, hg, hrecord, -⟩ := room_of_gamesCreated h hx
    rw [hg, Option.map_some, hrecord]
  · have hx' : (gamesCreated (tr ++ tr'))[i]? = some x := by
      rw [gamesCreated_append, List.getElem?_append_left (List.getElem?_eq_some_iff.1 hx).1, hx]
    obtain ⟨g, hg, hrecord, hid⟩ := room_of_gamesCreated h' hx'
    have hmem : g ∈ s'.rooms.gameRoom := List.mem_of_getElem? hg
    have hlt : g.roomId < 2 ^ 31 := by
      rw [length_gamesCreated h'] at hfew
      have hle := (wf.mem_gameIds.1 ⟨g, hmem, rfl⟩).2
      omega
    refine ⟨g, hg, hrecord, fun p request hbody => ?_⟩
    have hr : request.addressed 1 = some g.roomId :=
      addressed_idText hlt (by rw [hbody, ← hrecord]; rfl)
    have hat := wf.gameAt_eq_some hmem
    refine ⟨⟨hr, hat⟩, fun hop => ?_, fun hop => ?_, fun role hop => ?_⟩
    · exact Lobby.step_answer (process_getPlayerNbr hop hr hat)
    · exact Lobby.step_answer (process_getGameStatus hop hr hat)
    · rw [Lobby.step_join wf _ hop]
      simp only [hr, hat]

/-- The id of a game, sent back after a second game was created. -/
theorem games_stable_two_games : ∃ tr tr' s s', lobby.Run tr s ∧ lobby.Run (tr ++ tr') s' ∧
    gamesCreated tr = [⟨lit "1", lit "duel", 5, 30⟩] ∧
    (listing (gamesCreated tr) <+: listing (gamesCreated (tr ++ tr'))) := by
  have h := Machine.run_of_isSome lobby
    [.request 1 (makeRequest .createGame [lit "duel", lit "1", lit "5", lit "30"])]
    (by decide +kernel)
  have h' := h.exec_get
    [.request 2 (makeRequest .createGame [lit "other", lit "1", lit "2", lit "0"])]
    (by decide +kernel)
  exact ⟨_, _, _, _, h, h', by decide +kernel, (games_stable h h' (by decide +kernel)).2.1.1⟩

end SpaceBattle
