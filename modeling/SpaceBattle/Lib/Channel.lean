import SpaceBattle.Lib.AsyncWrite

/-!
# Channels

A channel is a socket written at one end, and the number of elements the other end has read
off its wire. The reader waits for a number of elements and takes them as soon as they are
on the wire.

`Holds content` : the writes came one after the other, and `content` is what was written
and has not been read, on the wire or still outstanding. A channel that holds nothing may be
written to; then partial writes keep what it holds, and each read takes it from the front.
Nothing that is held is stuck : `exists_flush` puts it on the wire.

`Received stored` : a read that has taken `stored` so far goes on from there, and in the end
has read what one read takes at once (`Received.read`).
-/

namespace AsyncWrite

variable {β : Type*}

/-- A socket, and the number of elements read off its wire. -/
structure Channel (β : Type*) where
  socket : Socket β
  taken : ℕ
  deriving DecidableEq

namespace Channel

def new : Channel β :=
  ⟨Socket.new, 0⟩

/-- Start to write the buffer. -/
def write (c : Channel β) (buffer : List β) : Channel β :=
  { c with socket := c.socket.asyncWrite buffer }

/-- A partial write. -/
def progress (c : Channel β) (k n : ℕ) : Option (Channel β) :=
  (c.socket.progress k n).map fun socket => { c with socket := socket }

/-- The next `n` elements, once they are on the wire. -/
def read (c : Channel β) (n : ℕ) : Option (List β × Channel β) :=
  if c.taken + n ≤ c.socket.wire.length then
    some ((c.socket.wire.drop c.taken).take n, { c with taken := c.taken + n })
  else none

/-- A read takes what it waits for. -/
theorem length_of_read {c c' : Channel β} {n : ℕ} {data : List β}
    (h : c.read n = some (data, c')) : data.length = n := by
  unfold read at h
  split at h
  · cases h
    simp only [List.length_take, List.length_drop]
    omega
  · cases h

/-- A read leaves the writer's end as it is. -/
theorem socket_of_read {c c' : Channel β} {n : ℕ} {data : List β}
    (h : c.read n = some (data, c')) : c'.socket = c.socket := by
  unfold read at h
  split at h
  · cases h
    rfl
  · cases h

/-- The writes came one after the other, and `content` is what was written and not read. -/
def Holds (c : Channel β) (content : List β) : Prop :=
  ∃ gone, gone.length = c.taken ∧ c.taken ≤ c.socket.wire.length ∧
    c.socket.InOrder (gone ++ content)

theorem holds_new : (new : Channel β).Holds [] :=
  ⟨[], rfl, le_rfl, Socket.inOrder_new⟩

variable {c c' : Channel β} {content : List β}

/-- A channel that holds nothing has no write outstanding. -/
theorem Holds.outstanding_eq_nil (h : c.Holds []) : c.socket.outstanding = [] := by
  obtain ⟨gone, hlength, hle, hs⟩ := h
  by_contra hne
  obtain ⟨w, -, hw, hrest⟩ := hs.eq_singleton hne
  have hsum := congrArg List.length hrest
  have hpos := List.length_pos_iff.2 hw
  simp only [List.length_append, List.append_nil] at hsum
  omega

/-- A write to a channel that holds nothing. -/
theorem Holds.write (h : c.Holds []) {buffer : List β} (hbuffer : buffer ≠ []) :
    (c.write buffer).Holds buffer := by
  have hnone := h.outstanding_eq_nil
  obtain ⟨gone, hlength, hle, hs⟩ := h
  rw [List.append_nil] at hs
  exact ⟨gone, hlength, hle, hs.asyncWrite hnone hbuffer⟩

/-- A partial write adds to the wire. -/
theorem wire_prefix_of_progress {s s' : Socket β} {k n : ℕ} (h : s.progress k n = some s') :
    s.wire <+: s'.wire := by
  cases hw : s.outstanding[k]? with
  | none => simp [Socket.progress, hw] at h
  | some w =>
    simp only [Socket.progress, hw, Option.ite_none_left_eq_some, Option.some.injEq] at h
    obtain ⟨-, rfl⟩ := h
    exact List.prefix_append _ _

/-- A partial write keeps what the channel holds. -/
theorem Holds.progress (h : c.Holds content) {k n : ℕ} (hp : c.progress k n = some c') :
    c'.Holds content := by
  obtain ⟨gone, hlength, hle, hs⟩ := h
  obtain ⟨socket, hsocket, rfl⟩ := Option.map_eq_some_iff.1 hp
  exact ⟨gone, hlength, hle.trans (wire_prefix_of_progress hsocket).length_le, hs.progress hsocket⟩

/-- A read takes the front of what the channel holds. -/
theorem Holds.read (h : c.Holds content) {n : ℕ} {data : List β}
    (hr : c.read n = some (data, c')) : data = content.take n ∧ c'.Holds (content.drop n) := by
  obtain ⟨gone, hlength, hle, hs⟩ := h
  unfold Channel.read at hr
  split at hr
  · rename_i hn
    cases hr
    have hrest : c.socket.wire.drop c.taken ++ c.socket.outstanding.flatten = content := by
      rw [← List.drop_append_of_le_length hle, hs.rest, ← hlength, List.drop_left]
    have hdata : (c.socket.wire.drop c.taken).take n = content.take n := by
      rw [← hrest, List.take_append_of_le_length (by rw [List.length_drop]; omega)]
    refine ⟨hdata, gone ++ content.take n, ?_, hn, ?_⟩
    · rw [List.length_append, ← hdata, List.length_take, List.length_drop, hlength]
      dsimp only
      omega
    · rw [List.append_assoc, List.take_append_drop]
      exact hs
  · cases hr

/-- Once nothing is outstanding, everything the channel holds can be read. -/
theorem Holds.exists_read (h : c.Holds content) (hnone : c.socket.outstanding = []) {n : ℕ}
    (hn : n ≤ content.length) : ∃ data c', c.read n = some (data, c') := by
  obtain ⟨gone, hlength, -, hs⟩ := h
  have hwire : c.socket.wire = gone ++ content := by simpa [hnone] using hs.rest
  refine ⟨_, _, if_pos ?_⟩
  rw [hwire, List.length_append]
  omega

/-- A write that is outstanding can be completed. -/
theorem Holds.exists_flush (h : c.Holds content) (hne : c.socket.outstanding ≠ []) :
    ∃ n c', c.progress 0 n = some c' ∧ c'.socket.outstanding = [] := by
  obtain ⟨gone, -, -, hs⟩ := h
  obtain ⟨w, hw, -, -⟩ := hs.eq_singleton hne
  refine ⟨w.length, ⟨⟨c.socket.wire ++ w, []⟩, c.taken⟩, ?_, rfl⟩
  simp [Channel.progress, Socket.progress, hw]

/-! ## Reads in parts -/

/-- The channel before its last `k` elements were read. -/
def putBack (c : Channel β) (k : ℕ) : Channel β :=
  { c with taken := c.taken - k }

/-- The elements read last are `stored`. -/
def Received (c : Channel β) (stored : List β) : Prop :=
  stored.length ≤ c.taken ∧
    (c.socket.wire.drop (c.taken - stored.length)).take stored.length = stored

theorem received_nil (c : Channel β) : c.Received [] :=
  ⟨Nat.zero_le _, List.take_zero⟩

variable {stored : List β}

/-- What has been read stays what it was when more is written. -/
theorem Received.of_prefix (h : c.Received stored) (htaken : c'.taken = c.taken)
    (hwire : c.socket.wire <+: c'.socket.wire) : c'.Received stored := by
  obtain ⟨hle, htake⟩ := h
  obtain ⟨more, hmore⟩ := hwire
  refine ⟨htaken ▸ hle, ?_⟩
  have hlength := congrArg List.length htake
  rw [List.length_take, List.length_drop] at hlength
  rcases Nat.eq_zero_or_pos stored.length with hzero | hpos
  · rw [hzero, List.take_zero, List.eq_nil_of_length_eq_zero hzero]
  · rw [htaken, ← hmore, List.drop_append_of_le_length (by omega),
      List.take_append_of_le_length (by rw [List.length_drop]; omega), htake]

/-- A part that is read behind what has been stored : together they are one read. -/
theorem Received.read (h : c.Received stored) {n : ℕ} {data : List β}
    (hr : c.read n = some (data, c')) : c'.Received (stored ++ data) ∧
      c'.putBack (stored ++ data).length = c.putBack stored.length ∧
      (c.putBack stored.length).read (stored.length + n) = some (stored ++ data, c') := by
  obtain ⟨hle, htake⟩ := h
  have hdata := length_of_read hr
  unfold Channel.read at hr
  split at hr
  · rename_i hn
    obtain ⟨rfl, rfl⟩ := Prod.mk.inj (Option.some.inj hr)
    have hwhole : (c.socket.wire.drop (c.taken - stored.length)).take (stored.length + n) =
        stored ++ (c.socket.wire.drop c.taken).take n := by
      rw [List.take_add, htake, List.drop_drop, Nat.sub_add_cancel hle]
    have hback : c.taken + n - (stored.length + n) = c.taken - stored.length := by omega
    refine ⟨⟨?_, ?_⟩, ?_, ?_⟩
    · rw [List.length_append, hdata]
      exact Nat.add_le_add_right hle n
    · rw [List.length_append, hdata, hback, hwhole]
    · rw [List.length_append, hdata, putBack, putBack, hback]
    · have hbehind : c.taken - stored.length + (stored.length + n) = c.taken + n := by omega
      rw [Channel.read, putBack]
      dsimp only
      rw [hbehind, if_pos hn, hwhole]
  · cases hr

/-- A part of a read can be read if all of it can. -/
theorem Received.exists_read (h : c.Received stored) {m n : ℕ} {r : List β × Channel β}
    (hr : (c.putBack stored.length).read m = some r) (hle : stored.length + n ≤ m) :
    ∃ data c', c.read n = some (data, c') := by
  unfold Channel.read at hr
  split at hr
  · rename_i hm
    have hback : (c.putBack stored.length).taken = c.taken - stored.length := rfl
    have hwire : (c.putBack stored.length).socket = c.socket := rfl
    have hstored := h.1
    exact ⟨_, _, if_pos (by rw [hback, hwire] at hm; omega)⟩
  · cases hr

end Channel

end AsyncWrite
