import SpaceBattle.Pool

/-!
# Who is present

The pool, the general room and the game rooms are updated by different code on different
events. `Present` ties them together : whoever sits in a game is the client of a live
connection, and the general room lists the clients of the live connections that were
answered `CLIENT_CONNECTED`, each once. It holds even when two connections share an id,
because the second of them is never connected and the close of one removes both.

`present_step` proves it for one event, `presence` for every run, with the head count
that `NBR_PEOPLE_LOGGED_IN` reports.
-/

namespace SpaceBattle

open Cpp RequestProcesser RoomInterface

namespace InputConnectionPool

/-! ## Logging in -/

/-- The connection the event logs in : its request is answered `CLIENT_CONNECTED`. -/
def logsIn : Event × Option Response → Option ℕ
  | (.request h _, some response) => if response.Answers .clientConnected then some h else none
  | _ => none

/-- The connections that have logged in. -/
def loggedIn (tr : List (Event × Option Response)) : List ℕ :=
  tr.filterMap logsIn

theorem mem_loggedIn_snoc {tr : List (Event × Option Response)} {x : Event × Option Response}
    {h : ℕ} : h ∈ loggedIn (tr ++ [x]) ↔ h ∈ loggedIn tr ∨ logsIn x = some h := by
  rw [loggedIn, List.filterMap_append, List.mem_append, ← loggedIn]
  refine or_congr Iff.rfl ?_
  simp [List.mem_filterMap]

/-! ## The invariant -/

/-- The rooms and the pool agree, `logged` the connections that have logged in. -/
structure Present (s : InputConnectionPool) (logged : List ℕ) : Prop where
  handles : s.Handles
  /-- Only connections accepted so far have logged in. -/
  logged_lt : ∀ h ∈ logged, h < s.accepted
  identified : s.Identified
  rooms : s.roomInterface.WellFormed
  /-- Whoever sits in a game is the client of a live connection. -/
  seated : ∀ p r role, s.roomInterface.Seated p r role → ∃ h, (h, p) ∈ s.names
  /-- The general room lists the live connections that have logged in. -/
  clients : ∀ p, p ∈ s.roomInterface.general.client ↔ ∃ h, (h, p) ∈ s.names ∧ h ∈ logged
  /-- No two of them have one id. -/
  unique : ∀ h h' p, (h, p) ∈ s.names → (h', p) ∈ s.names → h ∈ logged → h' ∈ logged → h = h'

/-- What a request does to the seats and to the clients of the general room : nobody but
its own client takes a seat, and the client list changes exactly by a login. -/
theorem outcome_presence {rp rp' : RequestProcesser} {rooms rooms' : RoomInterface}
    {request : Request} {resp : Response} (wf : rooms.WellFormed)
    (ho : Outcome rp rooms request resp rp' rooms') :
    (∀ q r role, rooms'.Seated q r role → q = rp.playerId ∨ rooms.Seated q r role) ∧
    (resp.Answers .clientConnected → rp.playerId ∉ rooms.general.client ∧
      rooms'.general.client = rooms.general.client ++ [rp.playerId]) ∧
    (¬resp.Answers .clientConnected → rooms'.general.client = rooms.general.client) := by
  cases ho with
  | connected _ _ hnew => exact ⟨fun _ _ _ h => Or.inr h, fun _ => ⟨hnew, rfl⟩, by simp⟩
  | saidInGeneral => exact ⟨fun _ _ _ h => Or.inr h, by simp, by simp⟩
  | saidInGame _ _ _ _ hit =>
    rw [wf.assign_eq_mapGame hit (·.say _ _)]
    exact ⟨fun _ _ _ h => Or.inr ((seated_say _ _ _).1 h), by simp, by simp⟩
  | left =>
    rw [wf.removeFromGame_eq_mapGame]
    exact ⟨fun _ _ _ h => Or.inr ((wf.seated_without _).1 h).2, by simp, by simp⟩
  | created =>
    refine ⟨fun q r role h => ?_, by simp, by simp [createGame_snd]⟩
    rcases (seated_createGame _ _ _ _).1 h with h | ⟨rfl, -⟩
    · exact Or.inr h
    · exact Or.inl rfl
  | @joined role _ _ _ _ _ _ _ hit =>
    rw [wf.assign_eq_mapGame hit (·.seat _ role)]
    refine ⟨fun q r role' h => ?_, by simp, by simp⟩
    rcases (seated_seat ⟨_, getGame_spec hit⟩ _ _).1 h with h | ⟨rfl, -⟩
    · exact Or.inr h
    · exact Or.inl rfl
  | @unchanged code _ hcode =>
    have hnot : code ≠ .clientConnected := ne_of_reportsChange hcode rfl
    exact ⟨fun _ _ _ h => Or.inr h, by simp [hnot], by simp⟩

theorem Handles.id_eq {s : InputConnectionPool} (hs : s.Handles) {h p p' : ℕ}
    (hp : (h, p) ∈ s.names) (hp' : (h, p') ∈ s.names) : p = p' := by
  obtain ⟨c, hc, hh, rfl⟩ := mem_names.1 hp
  obtain ⟨c', hc', hh', rfl⟩ := mem_names.1 hp'
  rw [hs.eq hc hc' (hh.trans hh'.symm)]

/-- A new connection has logged in nowhere. -/
theorem present_accept {s : InputConnectionPool} {logged : List ℕ} (hs : s.Present logged)
    (hhandles : s.insert.2.Handles) (hidentified : s.insert.2.Identified) :
    s.insert.2.Present logged := by
  have hnew {h p : ℕ} (hp : (h, p) ∈ s.insert.2.names) (hl : h ∈ logged) : (h, p) ∈ s.names := by
    rw [names_insert] at hp
    rcases List.mem_append.1 hp with hp | hp
    · exact hp
    · obtain ⟨rfl, -⟩ := Prod.mk.inj (List.mem_singleton.1 hp)
      exact absurd (hs.logged_lt _ hl) (lt_irrefl _)
  have hold {x : ℕ × ℕ} (hx : x ∈ s.names) : x ∈ s.insert.2.names := by
    rw [names_insert]
    exact List.mem_append_left _ hx
  refine ⟨hhandles, fun h hh => (hs.logged_lt h hh).trans (Nat.lt_succ_self _), hidentified,
    hs.rooms, fun p r role hp => ?_, fun p => ?_, fun h h' p hp hp' hl hl' => ?_⟩
  · obtain ⟨h, hh⟩ := hs.seated p r role hp
    exact ⟨h, hold hh⟩
  · refine (hs.clients p).trans ⟨?_, ?_⟩
    · rintro ⟨h, hp, hl⟩
      exact ⟨h, hold hp, hl⟩
    · rintro ⟨h, hp, hl⟩
      exact ⟨h, hnew hp hl, hl⟩
  · exact hs.unique h h' p (hnew hp hl) (hnew hp' hl') hl hl'

/-- A request of a live connection logs it in or leaves the client list alone. -/
theorem present_request {s : InputConnectionPool} {logged logged' : List ℕ} (hs : s.Present logged)
    {h : ℕ} {c : Protocol} (hfind : s.find h = some c) {request : Request} {resp : Response}
    {rp : RequestProcesser} {rooms : RoomInterface}
    (ho : Outcome c.requestProcesser s.roomInterface request resp rp rooms)
    (hhandles : ({ s.assign h rp with roomInterface := rooms } : InputConnectionPool).Handles)
    (hidentified : ({ s.assign h rp with roomInterface := rooms } : InputConnectionPool).Identified)
    (hlogged : ∀ x, x ∈ logged' ↔ x ∈ logged ∨ (resp.Answers .clientConnected ∧ x = h)) :
    ({ s.assign h rp with roomInterface := rooms } : InputConnectionPool).Present logged' := by
  obtain ⟨hc, rfl⟩ := find_spec hfind
  obtain ⟨hseated, hconnected, hrest⟩ := outcome_presence hs.rooms ho
  rw [hs.identified c hc] at hseated hconnected
  have hname := mem_names_of_mem hc
  -- a connection whose id is not in the general room has not logged in
  have hout {h' : ℕ} (hnot : c.id ∉ s.roomInterface.general.client) (hp : (h', c.id) ∈ s.names) :
      h' ∉ logged := fun hl => hnot ((hs.clients _).2 ⟨h', hp, hl⟩)
  refine ⟨hhandles, fun x hx => ?_, hidentified, ho.wellFormed hs.rooms,
    fun p r role hp => ?_, fun p => ?_, fun h₁ h₂ p hp₁ hp₂ hl₁ hl₂ => ?_⟩
  · rcases (hlogged x).1 hx with hx | ⟨-, rfl⟩
    · exact hs.logged_lt x hx
    · exact hs.handles.lt_accepted hc
  · rw [names_assign]
    rcases hseated p r role hp with rfl | hp
    · exact ⟨_, hname⟩
    · exact hs.seated p r role hp
  · rw [names_assign]
    by_cases hlogin : resp.Answers .clientConnected
    · obtain ⟨-, hclient⟩ := hconnected hlogin
      simp only [hclient, List.mem_append, List.mem_singleton, hs.clients, hlogged, hlogin,
        true_and]
      refine ⟨?_, ?_⟩
      · rintro (⟨h, hp, hl⟩ | rfl)
        · exact ⟨h, hp, Or.inl hl⟩
        · exact ⟨_, hname, Or.inr rfl⟩
      · rintro ⟨h, hp, hl | rfl⟩
        · exact Or.inl ⟨h, hp, hl⟩
        · exact Or.inr (hs.handles.id_eq hp hname)
    · simp [hrest hlogin, hs.clients, hlogged, hlogin]
  · rw [names_assign] at hp₁ hp₂
    rcases (hlogged _).1 hl₁ with hl₁ | ⟨hlogin, rfl⟩
    · rcases (hlogged _).1 hl₂ with hl₂ | ⟨hlogin, rfl⟩
      · exact hs.unique h₁ h₂ p hp₁ hp₂ hl₁ hl₂
      · obtain rfl := hs.handles.id_eq hp₂ hname
        exact absurd hl₁ (hout (hconnected hlogin).1 hp₁)
    · obtain rfl := hs.handles.id_eq hp₁ hname
      rcases (hlogged _).1 hl₂ with hl₂ | ⟨-, rfl⟩
      · exact absurd hl₂ (hout (hconnected hlogin).1 hp₂)
      · rfl

/-- A lost connection takes its id out of the rooms, and every connection with that id
out of the pool. -/
theorem present_lost {s : InputConnectionPool} {logged : List ℕ} (hs : s.Present logged)
    {h : ℕ} {c : Protocol} (hfind : s.find h = some c) {s' : InputConnectionPool}
    (hs' : s' = ({ s with roomInterface := c.requestProcesser.removeFromRoom s.roomInterface } :
      InputConnectionPool).remove c.id) (hhandles : s'.Handles) (hidentified : s'.Identified) :
    s'.Present logged := by
  obtain ⟨hc, rfl⟩ := find_spec hfind
  have hplayer := hs.identified c hc
  have hnames : ∀ h p, (h, p) ∈ s'.names ↔ (h, p) ∈ s.names ∧ p ≠ c.id := by
    simp [hs']
  have hwf := hs.rooms.removeFromGeneral c.id
  have hrooms : s'.roomInterface = ({ s.roomInterface with
      general := (s.roomInterface.general.removeClient c.id).2 } :
        RoomInterface).mapGame (·.without c.id) := by
    rw [hs', ← hplayer]
    exact hs.rooms.removeFromRoom_eq _
  have hclient : s'.roomInterface.general.client = s.roomInterface.general.client.erase c.id := by
    rw [hrooms]
    simp
  refine ⟨hhandles, ?_, hidentified, ?_, fun p r role hp => ?_, fun p => ?_,
    fun h h' p hp hp' => hs.unique h h' p ((hnames _ _).1 hp).1 ((hnames _ _).1 hp').1⟩
  · rw [hs']
    exact hs.logged_lt
  · rw [hrooms]
    exact hwf.without _
  · rw [hrooms] at hp
    obtain ⟨hne, hp⟩ := (hwf.seated_without c.id).1 hp
    obtain ⟨h, hh⟩ := hs.seated p r role hp
    exact ⟨h, (hnames h p).2 ⟨hh, hne⟩⟩
  · rw [hclient, hs.rooms.clients.mem_erase_iff, hs.clients]
    simp only [hnames]
    refine ⟨?_, ?_⟩
    · rintro ⟨hne, h, hp, hl⟩
      exact ⟨h, ⟨hp, hne⟩, hl⟩
    · rintro ⟨h, ⟨hp, hne⟩, hl⟩
      exact ⟨hne, h, hp, hl⟩

/-- Every event keeps the rooms and the pool in agreement. -/
theorem present_step {s s' : InputConnectionPool} {e : Event} {o : Option Response}
    {tr : List (Event × Option Response)} (hs : s.Present (loggedIn tr))
    (hstep : pool.step s e = some (s', o)) : s'.Present (loggedIn (tr ++ [(e, o)])) := by
  have hhandles := handles_step hs.handles hstep
  have hidentified := identified_step hs.identified hs.handles hstep
  rcases step_cases hstep with
    ⟨rfl, rfl, rfl⟩ | ⟨h, request, c, resp, rp, rooms, rfl, rfl, hfind, -, ho, rfl⟩ |
    ⟨h, c, rfl, rfl, hfind, hs'⟩
  · have hsame : loggedIn (tr ++ [(.accept, none)]) = loggedIn tr := by simp [loggedIn, logsIn]
    rw [hsame]
    exact present_accept hs hhandles hidentified
  · refine present_request hs hfind ho hhandles hidentified fun x => ?_
    rw [mem_loggedIn_snoc]
    refine or_congr Iff.rfl ?_
    simp [logsIn, eq_comm]
  · have hsame : loggedIn (tr ++ [(.lost h, none)]) = loggedIn tr := by simp [loggedIn, logsIn]
    rw [hsame]
    exact present_lost hs hfind hs' hhandles hidentified

theorem present_of_run {tr : List (Event × Option Response)} {s : InputConnectionPool}
    (h : pool.Run tr s) : s.Present (loggedIn tr) := by
  refine h.invariant_trace (I := fun tr s => s.Present (loggedIn tr)) ?_
    fun tr s e s' o _ hs hstep => present_step hs hstep
  refine ⟨handles_init, by simp [loggedIn], identified_init, WellFormed.new, ?_, ?_, ?_⟩
  · simp [pool, RoomInterface.new, Seated]
  · simp [pool, RoomInterface.new, GeneralRoom.new, names]
  · simp [pool, names]

/-! ## The head count -/

/-- The live connections that have logged in. -/
def present (s : InputConnectionPool) (tr : List (Event × Option Response)) : List Protocol :=
  s.inputCollection.filter fun c => c.handle ∈ loggedIn tr

theorem mem_present {s : InputConnectionPool} {tr : List (Event × Option Response)}
    {c : Protocol} : c ∈ s.present tr ↔ c ∈ s.inputCollection ∧ c.handle ∈ loggedIn tr := by
  simp [present]

section

variable {s : InputConnectionPool} {tr : List (Event × Option Response)}
  (hs : s.Present (loggedIn tr))

include hs

/-- No two connections that have logged in have one id. -/
theorem Present.eq_of_id {c c' : Protocol} (hc : c ∈ s.present tr) (hc' : c' ∈ s.present tr)
    (hid : c.id = c'.id) : c = c' := by
  obtain ⟨hc, hl⟩ := mem_present.1 hc
  obtain ⟨hc', hl'⟩ := mem_present.1 hc'
  exact hs.handles.eq hc hc' (hs.unique _ _ c.id (mem_names_of_mem hc)
    (hid ▸ mem_names_of_mem hc') hl hl')

/-- The general room lists their ids. -/
theorem Present.mem_client_iff {p : ℕ} :
    p ∈ s.roomInterface.general.client ↔ ∃ c ∈ s.present tr, c.id = p := by
  refine (hs.clients p).trans ⟨?_, ?_⟩
  · rintro ⟨h, hp, hl⟩
    obtain ⟨c, hc, rfl, hid⟩ := mem_names.1 hp
    exact ⟨c, mem_present.2 ⟨hc, hl⟩, hid⟩
  · rintro ⟨c, hc, rfl⟩
    obtain ⟨hc, hl⟩ := mem_present.1 hc
    exact ⟨_, mem_names_of_mem hc, hl⟩

theorem Present.length_clients :
    s.roomInterface.general.client.length = (s.present tr).length := by
  have hcoll : s.inputCollection.Nodup := by
    have hnodup := hs.handles.nodup
    rw [names, List.map_map] at hnodup
    exact hnodup.of_map
  have hnodup : ((s.present tr).map (·.id)).Nodup :=
    (hcoll.filter _).map_on fun c hc c' hc' hid => hs.eq_of_id hc hc' hid
  have hperm : s.roomInterface.general.client.Perm ((s.present tr).map (·.id)) :=
    (List.perm_ext_iff_of_nodup hs.rooms.clients hnodup).2 fun p => by
      rw [hs.mem_client_iff, List.mem_map]
  rw [hperm.length_eq, List.length_map]

end

theorem process_nbrPeopleLoggedIn {rp : RequestProcesser} {room : RoomInterface} {request : Request}
    (hop : request.header.opCode = OpCode.nbrPeopleLoggedIn.code) : rp.process room request =
      .ok (makeResponse .numberClientConnected [digits room.general.client.length], rp, room) := by
  simp [process, hop, getNbrClientConnected, RoomInterface.getClientConnected,
    GeneralRoom.getNbrClient]

/-- In every reachable state whoever is in a game is the client of a live connection, the
general room lists exactly the live connections that have logged in, each once, and the
head count is their number. -/
theorem presence {tr : List (Event × Option Response)} {s : InputConnectionPool}
    (h : pool.Run tr s) :
    (∀ g ∈ s.roomInterface.gameRoom, ∀ p ∈ g.playerIds ++ g.viewerIds,
      ∃ c ∈ s.inputCollection, c.id = p) ∧
    s.roomInterface.general.client.Nodup ∧
    (∀ p, p ∈ s.roomInterface.general.client ↔ ∃ c ∈ s.present tr, c.id = p) ∧
    (∀ c ∈ s.present tr, ∀ c' ∈ s.present tr, c.id = c'.id → c = c') ∧
    ∀ c ∈ s.inputCollection, ∀ request, request.header.opCode = OpCode.nbrPeopleLoggedIn.code →
      ∃ s', pool.step s (.request c.handle request) = some (s',
        some (makeResponse .numberClientConnected [digits (s.present tr).length])) := by
  have hs := present_of_run h
  refine ⟨fun g hg p hp => ?_, hs.rooms.clients, fun p => hs.mem_client_iff,
    fun c hc c' hc' hid => hs.eq_of_id hc hc' hid, fun c hc request hop => ?_⟩
  · obtain ⟨role, hrole⟩ := GameRoom.mem_everyone.1 hp
    obtain ⟨h, hh⟩ := hs.seated p g.roomId role ⟨g, hg, rfl, hrole⟩
    obtain ⟨c, hc, -, hid⟩ := mem_names.1 hh
    exact ⟨c, hc, hid⟩
  · obtain ⟨c', hfind⟩ := exists_find_iff.2 ⟨c.id, mem_names_of_mem hc⟩
    have hprocess := @process_nbrPeopleLoggedIn c'.requestProcesser s.roomInterface request hop
    rw [hs.length_clients] at hprocess
    simp only [pool, step, hfind, hprocess]
    exact ⟨_, rfl⟩

/-- Two connections share the id two; the one that logged in is the one that counts, and sits in
the game it has created. -/
theorem presence_shared_id : ∃ tr s, pool.Run tr s ∧ s.names = [(1, 2), (2, 2)] ∧
    (s.present tr).map (·.handle) = [1] ∧
    s.roomInterface.gameRoom.map (·.playerIds) = [[2]] ∧
    (∀ g ∈ s.roomInterface.gameRoom, ∀ p ∈ g.playerIds ++ g.viewerIds,
      ∃ c ∈ s.inputCollection, c.id = p) ∧
    s.roomInterface.general.client.Nodup ∧
    (∀ p, p ∈ s.roomInterface.general.client ↔ ∃ c ∈ s.present tr, c.id = p) ∧
    ∃ s', pool.step s (.request 2 (makeRequest .nbrPeopleLoggedIn [])) =
      some (s', some (makeResponse .numberClientConnected [lit "1"])) := by
  have hrun := Machine.run_of_isSome pool
    [.accept, .accept, .lost 0, .accept, .request 1 (makeRequest .clientConnect [lit "ada"]),
      .request 1 (makeRequest .createGame [lit "duel", lit "1", lit "5", lit "30"]),
      .request 2 (makeRequest .clientConnect [lit "bob"])] (by decide +kernel)
  obtain ⟨hseated, hnodup, hclients, -, hcount⟩ := presence hrun
  obtain ⟨s', hstep⟩ := hcount ⟨2, 2, ⟨2, []⟩⟩ (by decide +kernel)
    (makeRequest .nbrPeopleLoggedIn []) (by decide)
  refine ⟨_, _, hrun, by decide +kernel, by decide +kernel, by decide +kernel, hseated, hnodup,
    hclients, s', hstep.trans ?_⟩
  refine congrArg (fun n => some (s', some (makeResponse .numberClientConnected [n]))) ?_
  decide +kernel

end InputConnectionPool

end SpaceBattle
