import Mathlib.Data.List.Basic
import Mathlib.Order.Nat
import SpaceBattle.Lib.Machine

/-!
# Connecting

`client::connect` resolves its host and hands the endpoints to `asio::async_connect`, whose
`connect_op` connects the socket to one after the other. A completion tells the error code and
if the socket is still open. With no endpoints the handler is posted, with `not_found`.

`callbacks_of_run` : each completion but the last has refused an endpoint, the endpoints are
tried in order, one more than have refused, and one callback of the client is called, once, by
the last completion. It is `on_connect` if and only if that one has not failed and has found
the socket open.
-/

namespace SpaceBattle

namespace Asio

/-- `connect_op` : the endpoints, and `iter_` as an index. -/
structure ConnectOp (α : Type*) where
  endpoints : List α
  iter : ℕ
  deriving DecidableEq

/-- How a call of `operator()` ends. -/
inductive ConnectTurn (α : Type*)
  /-- The socket is closed, and connected to the endpoint. -/
  | connect (endpoint : α)
  | post (ec : Option String)
  | handler (ec : Option String) (iter : ℕ)
  deriving DecidableEq

/-- What the completion of a connect, or of what was posted, finds. -/
structure ConnectCompletion where
  ec : Option String
  isOpen : Bool
  deriving DecidableEq

namespace ConnectOp

variable {α : Type*}

/-- The call with `start`. -/
def start (op : ConnectOp α) : ConnectTurn α :=
  match op.endpoints[op.iter]? with
  | some endpoint => .connect endpoint
  | none => .post (some "Element not found")

/-- The call by a completion. -/
def resume (op : ConnectOp α) (e : ConnectCompletion) : ConnectOp α × ConnectTurn α :=
  if op.iter = op.endpoints.length then (op, .handler e.ec op.iter)
  else if !e.isOpen then (op, .handler (some "Operation aborted.") op.iter)
  else if e.ec.isNone then (op, .handler e.ec op.iter)
  else
    let op : ConnectOp α := ⟨op.endpoints, op.iter + 1⟩
    match op.endpoints[op.iter]? with
    | some endpoint => (op, .connect endpoint)
    | none => (op, .handler e.ec op.iter)

end ConnectOp

/-- An operation and where its last call ended. -/
structure Connecting (α : Type*) where
  op : ConnectOp α
  turn : ConnectTurn α
  deriving DecidableEq

/-- A completion, and how its call ends. What was posted has the error code it was posted
with. -/
def Connecting.step {α : Type*} (s : Connecting α) (e : ConnectCompletion) :
    Option (Connecting α × ConnectTurn α) :=
  match s.turn with
  | .handler _ _ => none
  | .post ec => if e.ec = ec then some (⟨(s.op.resume e).1, (s.op.resume e).2⟩, (s.op.resume e).2)
    else none
  | .connect _ => some (⟨(s.op.resume e).1, (s.op.resume e).2⟩, (s.op.resume e).2)

/-- `async_connect` to the endpoints. -/
def connecting {α : Type*} (endpoints : List α) :
    Machine (Connecting α) ConnectCompletion (ConnectTurn α) :=
  ⟨⟨⟨endpoints, 0⟩, (⟨endpoints, 0⟩ : ConnectOp α).start⟩, Connecting.step⟩

/-! ## What the client is told -/

/-- What `client::connect` calls. -/
inductive ConnectCallback
  | onConnect
  | onConnectFailed
  deriving DecidableEq

/-- `connect_socket`, the handler of `client::connect`. -/
def connectSocket (ec : Option String) : ConnectCallback :=
  if ec.isNone then .onConnect else .onConnectFailed

namespace ConnectCompletion

/-- The endpoint has refused. -/
def Refused (e : ConnectCompletion) : Prop :=
  e.ec ≠ none ∧ e.isOpen = true

/-- The socket is connected. -/
def Accepted (e : ConnectCompletion) : Prop :=
  e.ec = none ∧ e.isOpen = true

instance (e : ConnectCompletion) : Decidable e.Refused :=
  inferInstanceAs (Decidable (_ ∧ _))

instance (e : ConnectCompletion) : Decidable e.Accepted :=
  inferInstanceAs (Decidable (_ ∧ _))

end ConnectCompletion

namespace Connecting

variable {α : Type*}

/-- The callback that is called where a call ends. -/
def callback : ConnectTurn α → Option ConnectCallback
  | .handler ec _ => some (connectSocket ec)
  | _ => none

/-- The endpoint that is tried where a call ends. -/
def endpoint : ConnectTurn α → Option α
  | .connect endpoint => some endpoint
  | _ => none

/-- The callbacks that have been called. -/
def callbacks (tr : List (ConnectCompletion × ConnectTurn α)) : List ConnectCallback :=
  tr.filterMap fun x => callback x.2

/-- The endpoints that have been tried. -/
def tried (endpoints : List α) (tr : List (ConnectCompletion × ConnectTurn α)) : List α :=
  ((connecting endpoints).init.turn :: tr.map Prod.snd).filterMap endpoint

/-- How many have refused. -/
def refusals (tr : List (ConnectCompletion × ConnectTurn α)) : ℕ :=
  tr.countP fun x => x.1.Refused

variable {endpoints : List α} {tr : List (ConnectCompletion × ConnectTurn α)} {s s' : Connecting α}
  {e : ConnectCompletion} {o : ConnectTurn α}

theorem callbacks_snoc (tr : List (ConnectCompletion × ConnectTurn α)) (e : ConnectCompletion)
    (o : ConnectTurn α) : callbacks (tr ++ [(e, o)]) = callbacks tr ++ (callback o).toList := by
  cases h : callback o <;> simp [callbacks, h]

theorem tried_snoc (endpoints : List α) (tr : List (ConnectCompletion × ConnectTurn α))
    (e : ConnectCompletion) (o : ConnectTurn α) :
    tried endpoints (tr ++ [(e, o)]) = tried endpoints tr ++ (endpoint o).toList := by
  rw [tried, List.map_append, List.map_singleton, ← List.cons_append, List.filterMap_append, tried]
  cases h : endpoint o <;> simp [h]

theorem refusals_of_refused (h : ∀ x ∈ tr, x.1.Refused) : refusals tr = tr.length :=
  List.countP_eq_length.2 fun x hx => decide_eq_true (h x hx)

/-- Nothing has been called : all the completions have refused, and there is one to come. -/
structure Trying (endpoints : List α) (tr : List (ConnectCompletion × ConnectTurn α))
    (s : Connecting α) : Prop where
  op : s.op = ⟨endpoints, tr.length⟩
  turn : s.turn = s.op.start
  room : tr.length < endpoints.length ∨ endpoints = [] ∧ tr = []
  refused : ∀ x ∈ tr, x.1.Refused
  callbacks : callbacks tr = []
  tried : tried endpoints tr = endpoints.take (tr.length + 1)

/-- The handler was called by the last completion. -/
structure Over (endpoints : List α) (tr : List (ConnectCompletion × ConnectTurn α))
    (s : Connecting α) : Prop where
  turn : ∃ ec i, s.turn = .handler ec i
  last : ∃ tr₁ e o call, tr = tr₁ ++ [(e, o)] ∧ callbacks tr = [call] ∧
    (∀ x ∈ tr₁, x.1.Refused) ∧ (call = .onConnect ↔ e.Accepted) ∧
    (e.Refused → tr.length = max 1 endpoints.length)
  length : tr.length ≤ max 1 endpoints.length
  tried : tried endpoints tr = endpoints.take (refusals tr + 1)

theorem trying_init (endpoints : List α) : Trying endpoints [] (connecting endpoints).init where
  op := rfl
  turn := rfl
  room := by
    rcases endpoints with _ | ⟨a, endpoints⟩
    · exact Or.inr ⟨rfl, rfl⟩
    · exact Or.inl (Nat.succ_pos _)
  refused := by simp
  callbacks := rfl
  tried := by cases endpoints <;> rfl

theorem connectSocket_eq_onConnect {ec : Option String} :
    connectSocket ec = .onConnect ↔ ec = none := by
  cases ec <;> simp [connectSocket]

/-- A completion that calls the handler is the last. -/
theorem Trying.over (hs : Trying endpoints tr s) {ec : Option String} {i : ℕ}
    (hturn : s'.turn = .handler ec i) (hec : ec = none ↔ e.Accepted)
    (hrefused : e.Refused → tr.length + 1 = max 1 endpoints.length) :
    Over endpoints (tr ++ [(e, .handler ec i)]) s' := by
  have hlength : (tr ++ [(e, ConnectTurn.handler (α := α) ec i)]).length = tr.length + 1 :=
    List.length_append
  refine ⟨⟨ec, i, hturn⟩, ⟨tr, e, .handler ec i, connectSocket ec, rfl, ?_, hs.refused, ?_, ?_⟩,
    ?_, ?_⟩
  · rw [callbacks_snoc, hs.callbacks]
    rfl
  · rw [connectSocket_eq_onConnect, hec]
  · rwa [hlength]
  · rw [hlength]
    rcases hs.room with hlt | ⟨rfl, rfl⟩
    · exact Nat.le_trans hlt (Nat.le_max_right _ _)
    · exact Nat.le_max_left _ _
  · have hcount : refusals (tr ++ [(e, ConnectTurn.handler (α := α) ec i)]) =
        tr.length + if e.Refused then 1 else 0 := by
      rw [← refusals_of_refused hs.refused]
      by_cases he : e.Refused <;> simp [refusals, List.countP_append, he]
    rw [tried_snoc, hs.tried, hcount]
    have hnone : endpoint (ConnectTurn.handler (α := α) ec i) = none := rfl
    rw [hnone, Option.toList_none, List.append_nil]
    split
    · rename_i he
      -- all the endpoints have refused, so there is none to take behind them
      have hall := hrefused he
      rw [List.take_of_length_le (by omega), List.take_of_length_le (by omega)]
    · rfl

/-- While nothing has been called, a completion refuses one more endpoint or is the last. -/
theorem Trying.step (hs : Trying endpoints tr s)
    (h : (connecting endpoints).step s e = some (s', o)) :
    Trying endpoints (tr ++ [(e, o)]) s' ∨ Over endpoints (tr ++ [(e, o)]) s' := by
  rcases hs.room with hlt | ⟨rfl, rfl⟩
  · have hturn : s.turn = .connect endpoints[tr.length] := by
      rw [hs.turn, hs.op, ConnectOp.start]
      simp [hlt]
    have hresume : s.op.resume e = (s'.op, o) ∧ s'.turn = o := by
      simp only [connecting, Connecting.step, hturn, Option.some.injEq, Prod.mk.injEq] at h
      obtain ⟨rfl, rfl⟩ := h
      exact ⟨rfl, rfl⟩
    obtain ⟨hresume, hturn'⟩ := hresume
    rw [hs.op] at hresume
    unfold ConnectOp.resume at hresume
    simp only [hlt.ne, if_false] at hresume
    split_ifs at hresume with hclosed hnone
    · -- the socket was closed
      obtain ⟨-, rfl⟩ := Prod.mk.inj hresume
      have hopen : e.isOpen = false := by simpa using hclosed
      refine Or.inr (hs.over hturn' ?_ fun he => ?_)
      · simp [ConnectCompletion.Accepted, hopen]
      · simp [ConnectCompletion.Refused, hopen] at he
    · -- the endpoint accepts
      obtain ⟨-, rfl⟩ := Prod.mk.inj hresume
      have hopen : e.isOpen = true := by simpa using hclosed
      have hec : e.ec = none := by simpa using hnone
      refine Or.inr (hs.over hturn' ?_ fun he => absurd hec he.1)
      simp [ConnectCompletion.Accepted, hopen, hec]
    · have hrefused : e.Refused := ⟨by simpa using hnone, by simpa using hclosed⟩
      cases hnext : endpoints[tr.length + 1]? with
      | none =>
        -- it was the last of them
        simp only [hnext] at hresume
        obtain ⟨-, rfl⟩ := Prod.mk.inj hresume
        have hend := List.getElem?_eq_none_iff.1 hnext
        refine Or.inr (hs.over hturn' ?_ fun _ => ?_)
        · exact iff_of_false hrefused.1 fun he => hrefused.1 he.1
        · omega
      | some a =>
        simp only [hnext] at hresume
        obtain ⟨hop, rfl⟩ := Prod.mk.inj hresume
        have hlength : (tr ++ [(e, ConnectTurn.connect a)]).length = tr.length + 1 :=
          List.length_append
        refine Or.inl ⟨?_, ?_, Or.inl ?_, ?_, ?_, ?_⟩
        · rw [← hop, hlength]
        · rw [hturn', ← hop, ConnectOp.start]
          simp [hnext]
        · rw [hlength]
          exact (List.getElem?_eq_some_iff.1 hnext).1
        · rintro x hx
          rcases List.mem_append.1 hx with hx | hx
          · exact hs.refused x hx
          · rw [List.mem_singleton.1 hx]
            exact hrefused
        · rw [callbacks_snoc, hs.callbacks]
          rfl
        · rw [tried_snoc, hs.tried, hlength, List.take_add_one (i := tr.length + 1), hnext]
          rfl
  · -- there is no endpoint : what was posted calls the handler
    have hturn : s.turn = .post (some "Element not found") := by
      rw [hs.turn, hs.op]
      rfl
    have hresume : e.ec = some "Element not found" ∧ s.op.resume e = (s'.op, o) ∧ s'.turn = o := by
      simp only [connecting, Connecting.step, hturn, Option.ite_none_right_eq_some,
        Option.some.injEq, Prod.mk.injEq] at h
      obtain ⟨hec, rfl, rfl⟩ := h
      exact ⟨hec, rfl, rfl⟩
    obtain ⟨hec, hresume, hturn'⟩ := hresume
    rw [hs.op] at hresume
    obtain ⟨-, rfl⟩ := Prod.mk.inj hresume
    refine Or.inr (hs.over hturn' ?_ fun _ => rfl)
    simp [ConnectCompletion.Accepted, hec]

theorem trying_or_over (h : (connecting endpoints).Run tr s) :
    Trying endpoints tr s ∨ Over endpoints tr s := by
  refine h.invariant_trace (I := fun tr s => Trying endpoints tr s ∨ Over endpoints tr s)
    (Or.inl (trying_init endpoints)) ?_
  rintro tr s e s' o - (hs | hs) hstep
  · exact hs.step hstep
  · obtain ⟨ec, i, hturn⟩ := hs.turn
    simp [connecting, Connecting.step, hturn] at hstep

/-- While nothing has been called, a completion can happen. -/
theorem Trying.exists_step (hs : Trying endpoints tr s) :
    ∃ e s' o, (connecting endpoints).step s e = some (s', o) := by
  have hsome : ∃ e, ((connecting endpoints).step s e).isSome := by
    cases hturn : s.turn with
    | connect a => exact ⟨⟨none, true⟩, by simp [connecting, Connecting.step, hturn]⟩
    | post ec => exact ⟨⟨ec, true⟩, by simp [connecting, Connecting.step, hturn]⟩
    | handler ec i =>
      rw [hs.turn, ConnectOp.start] at hturn
      split at hturn <;> cases hturn
  obtain ⟨e, he⟩ := hsome
  obtain ⟨⟨s', o⟩, hstep⟩ := Option.isSome_iff_exists.1 he
  exact ⟨e, s', o, hstep⟩

/-- In every run the endpoints are tried in order, one more than have refused. Until a callback
is called all have refused and another completion can happen, and it is called by the last
completion, after at most one for each endpoint : `on_connect` if and only if that one has not
failed and has found the socket open. If it was refused too, then all were. -/
theorem callbacks_of_run (h : (connecting endpoints).Run tr s) :
    tried endpoints tr = endpoints.take (refusals tr + 1) ∧
    tr.length ≤ max 1 endpoints.length ∧
    (callbacks tr = [] ∧ (∀ x ∈ tr, x.1.Refused) ∧
        (∃ e s' o, (connecting endpoints).step s e = some (s', o)) ∨
      ∃ tr₁ e o call, tr = tr₁ ++ [(e, o)] ∧ callbacks tr = [call] ∧
        (∀ x ∈ tr₁, x.1.Refused) ∧ (call = .onConnect ↔ e.Accepted) ∧
        (e.Refused → tr.length = max 1 endpoints.length)) := by
  rcases trying_or_over h with hs | hs
  · refine ⟨?_, ?_, Or.inl ⟨hs.callbacks, hs.refused, hs.exists_step⟩⟩
    · rw [refusals_of_refused hs.refused, hs.tried]
    · rcases hs.room with hlt | ⟨-, rfl⟩
      · exact Nat.le_trans hlt.le (Nat.le_max_right _ _)
      · exact Nat.zero_le _
  · exact ⟨hs.tried, hs.length, Or.inr hs.last⟩

/-- The first endpoint refuses and the second accepts. -/
theorem callbacks_of_run_second : ∃ tr s, (connecting ["::1", "127.0.0.1", "10.0.0.1"]).Run tr s ∧
    callbacks tr = [.onConnect] ∧ refusals tr = 1 ∧
    tried ["::1", "127.0.0.1", "10.0.0.1"] tr =
      ["::1", "127.0.0.1", "10.0.0.1"].take (refusals tr + 1) := by
  have hrun := Machine.run_of_isSome (connecting ["::1", "127.0.0.1", "10.0.0.1"])
    [⟨some "Connection refused", true⟩, ⟨none, true⟩] (by decide +kernel)
  exact ⟨_, _, hrun, by decide +kernel, by decide +kernel, (callbacks_of_run hrun).1⟩

end Connecting

end Asio

end SpaceBattle
