import SpaceBattle.Lobby

/-!
# The viewer limit

A game room records how many viewers it takes. `insert_viewer` compares that limit with
zero only, so a room with a positive limit takes any number of viewers.

`viewers_within_limit_iff` : along a run every room stays within its limit and a free
client is refused a viewer seat exactly when the room is full, if and only if no free
client asks for a viewer seat of a full room whose limit is positive.
-/

namespace SpaceBattle

open Cpp RequestProcesser RoomInterface

/-- The request asks for a seat in the role, in the room with this id. -/
def Request.AsksSeat (request : Request) (role : Role) (r : ℕ) : Prop :=
  request.header.opCode = (joinCode role).code ∧
    ∃ roomText n, request.body.content = [roomText] ∧ stoi roomText = .ok n ∧ toSize n = r

/-- No room has more viewers than its limit. -/
def WithinLimit (s : Lobby) : Prop :=
  ∀ g ∈ s.rooms.gameRoom, g.viewerIds.length ≤ g.viewerLimit

/-- A free client that asks an existing room for a viewer seat is refused, with
`TOO_MANY_CLIENTS`, exactly if the room has as many viewers as its limit. -/
def RefusedIfFull (s : Lobby) (e : Lobby.Event) (o : Option Response) (_ : Lobby) : Prop :=
  ∀ p request, e = .request p request → ¬s.rooms.isInRoom p →
    ∀ g ∈ s.rooms.gameRoom, request.AsksSeat .viewer g.roomId →
      ((∃ resp, o = some resp ∧ resp.Answers .tooManyClients) ↔
        g.viewerLimit ≤ g.viewerIds.length)

/-- The event is not a free client asking for a viewer seat of a full room with a
positive limit. -/
def NoFullRoomAsked (s : Lobby) (e : Lobby.Event) (_ : Option Response) (_ : Lobby) : Prop :=
  ∀ p request, e = .request p request → ¬s.rooms.isInRoom p →
    ∀ g ∈ s.rooms.gameRoom, request.AsksSeat .viewer g.roomId → 0 < g.viewerLimit →
      g.viewerIds.length < g.viewerLimit

/-- A viewer seat is refused exactly if the limit is zero. -/
theorem answer_viewer {s s' : Lobby} {p : ℕ} {request : Request} {o : Option Response}
    (wf : s.rooms.WellFormed) (h : lobby.step s (.request p request) = some (s', o))
    (hfree : ¬s.rooms.isInRoom p) {g : GameRoom} (hg : g ∈ s.rooms.gameRoom)
    (hasks : request.AsksSeat .viewer g.roomId) :
    (∃ resp, o = some resp ∧ resp.Answers .tooManyClients) ↔ g.viewerLimit = 0 := by
  obtain ⟨resp, rp, rfl, hprocess, -⟩ := Lobby.step_request h
  obtain ⟨hop, roomText, n, hbody, hroom, hid⟩ := hasks
  obtain ⟨it, hit, rfl⟩ := wf.getGame_eq_some hg
  rw [← hid] at hit
  rw [process_join (s.processer p) hop hbody hroom hfree hit] at hprocess
  simp only [Option.some.injEq, exists_eq_left']
  by_cases hlimit : it.value.viewerLimit = 0
  · have hfull : ¬it.value.hasPlace .viewer := by simp [GameRoom.hasPlace, hlimit]
    rw [if_neg hfull] at hprocess
    obtain ⟨rfl, -⟩ := Prod.mk.inj (Except.ok.inj hprocess)
    simp [hlimit]
  · have hplace : it.value.hasPlace .viewer := by simp [GameRoom.hasPlace, hlimit]
    rw [if_pos hplace] at hprocess
    obtain ⟨rfl, -⟩ := Prod.mk.inj (Except.ok.inj hprocess)
    simp [hlimit]

/-- The refusals are right at a step exactly if no full room is asked. -/
theorem refusedIfFull_iff {s s' : Lobby} {e : Lobby.Event} {o : Option Response}
    (wf : s.rooms.WellFormed) (h : lobby.step s e = some (s', o)) :
    RefusedIfFull s e o s' ↔ NoFullRoomAsked s e o s' := by
  refine ⟨fun hrefused p request he hfree g hg hasks hpos => ?_,
    fun hasked p request he hfree g hg hasks => ?_⟩
  · subst he
    have hrefused := hrefused p request rfl hfree g hg hasks
    rw [answer_viewer wf h hfree hg hasks] at hrefused
    omega
  · subst he
    have hasked := hasked p request rfl hfree g hg hasks
    rw [answer_viewer wf h hfree hg hasks]
    omega

theorem WithinLimit.mapGame {s s' : Lobby} (hs : WithinLimit s) {F : GameRoom → GameRoom}
    (hrooms : s'.rooms.gameRoom = s.rooms.gameRoom.map F)
    (hF : ∀ g ∈ s.rooms.gameRoom, g.viewerIds.length ≤ g.viewerLimit →
      (F g).viewerIds.length ≤ (F g).viewerLimit) : WithinLimit s' := by
  rw [WithinLimit, hrooms]
  exact List.forall_mem_map.2 fun g hg => hF g hg (hs g hg)

/-- A step that asks no full room keeps every room within its limit. -/
theorem withinLimit_step {s s' : Lobby} {e : Lobby.Event} {o : Option Response}
    (wf : s.rooms.WellFormed) (hs : WithinLimit s) (h : lobby.step s e = some (s', o))
    (hasked : NoFullRoomAsked s e o s') : WithinLimit s' := by
  have hwithout (p : ℕ) : ∀ g : GameRoom, g.viewerIds.length ≤ g.viewerLimit →
      (g.without p).viewerIds.length ≤ (g.without p).viewerLimit := fun g hle =>
    List.length_erase_le.trans hle
  rcases Lobby.step_cases h with ⟨p, request, resp, rp, rfl, rfl, -, ho⟩ | ⟨p, rfl, rfl, hrooms⟩
  · generalize hs' : s'.rooms = rooms' at ho
    cases ho with
    | connected | saidInGeneral | unchanged => simpa [WithinLimit, hs'] using hs
    | saidInGame _ _ _ _ hit =>
      rw [wf.assign_eq_mapGame hit (·.say _ _)] at hs'
      exact hs.mapGame (congrArg (·.gameRoom) hs') fun g _ hle =>
        atGame_induction (P := fun x => x.viewerIds.length ≤ x.viewerLimit) (fun _ => hle) hle
    | left =>
      rw [wf.removeFromGame_eq_mapGame] at hs'
      exact hs.mapGame (congrArg (·.gameRoom) hs') fun g _ hle => hwithout _ g hle
    | created =>
      intro g hg
      rw [hs'] at hg
      rcases List.mem_append.1 hg with hg | hg
      · exact hs g hg
      · rw [List.mem_singleton.1 hg]
        simp [GameRoom.new]
    | @joined role roomText n it hop hbody hroom hfree hit hplace =>
      rw [wf.assign_eq_mapGame hit (·.seat _ role)] at hs'
      refine hs.mapGame (congrArg (·.gameRoom) hs') fun g hg hle =>
        atGame_induction (P := fun x => x.viewerIds.length ≤ x.viewerLimit) (fun hgid => ?_) hle
      cases role with
      | player => exact hle
      | viewer =>
        -- the room asked has a positive limit, so it is not full
        obtain ⟨hmem, hid⟩ := getGame_spec hit
        have hpos : 0 < g.viewerLimit := by
          rw [← wf.eq_of_roomId hmem hg (hid.trans hgid.symm)]
          simpa [GameRoom.hasPlace, Nat.pos_iff_ne_zero] using hplace
        have hlt := hasked p request rfl hfree g hg
          ⟨hop, roomText, n, hbody, hroom, hgid.symm⟩ hpos
        simpa [GameRoom.seat, Nat.succ_le_iff] using hlt
  · rw [wf.removeFromRoom_eq] at hrooms
    exact hs.mapGame (congrArg (·.gameRoom) hrooms) fun g _ hle => hwithout _ g hle

/-- Along a run every room stays within its limit, and a free client is refused a viewer
seat exactly when the room is full, if and only if no free client asks for a viewer seat
of a full room whose limit is positive. -/
theorem viewers_within_limit_iff (tr : List (Lobby.Event × Option Response)) :
    lobby.Throughout WithinLimit tr ∧ lobby.Along RefusedIfFull tr ↔
      lobby.Along NoFullRoomAsked tr := by
  have hcongr := Machine.along_congr (fun _ _ _ _ _ hrun hstep =>
    refusedIfFull_iff (Lobby.wellFormed_of_run hrun) hstep) tr
  rw [← hcongr]
  refine ⟨fun h => h.2, fun h => ⟨?_, h⟩⟩
  have hwithin : lobby.Throughout (fun s => s.rooms.WellFormed ∧ WithinLimit s) tr := by
    refine Machine.Along.throughout ⟨RoomInterface.WellFormed.new, ?_⟩ (fun s e s' o hs hst hp =>
      ⟨Lobby.wellFormed_of_step hs.1 hst, withinLimit_step hs.1 hs.2 hst hp⟩) (hcongr.1 h)
    simp [WithinLimit, lobby, RoomInterface.new]
  exact fun tr₁ s hpre hr => (hwithin tr₁ s hpre hr).2

/-- Two viewers in a room whose limit is one. -/
theorem two_viewers_of_one : ∃ tr s, lobby.Run tr s ∧
    ¬(lobby.Throughout WithinLimit tr ∧ lobby.Along RefusedIfFull tr) := by
  have hrun := Machine.run_of_isSome lobby
    [.request 1 (makeRequest .createGame [lit "duel", lit "1", lit "1", lit "30"]),
      .request 2 (makeRequest .joinAsViewer [lit "1"]),
      .request 3 (makeRequest .joinAsViewer [lit "1"])] (by decide +kernel)
  refine ⟨_, _, hrun, fun h => ?_⟩
  have hwithin := h.1 _ _ (List.prefix_refl _) hrun
  revert hwithin
  unfold WithinLimit
  decide +kernel

end SpaceBattle
