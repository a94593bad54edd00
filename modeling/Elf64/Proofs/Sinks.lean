import Mathlib.Data.List.TakeDrop
import Elf64.Output.Sink

/-! What a sink keeps of the bytes that it is offered.

However many writes it takes, and whatever interrupts them, what ends up in a sink is the front of the
buffer: as much of it as there is room for (`Sink.writeAll_eq`). One write stores a part of that front and
leaves room for the rest of it (`Sink.share_eq`), and every way in which a write can disappoint keeps
the limits of the sink as they are (`Sink.Stores`). -/

set_option autoImplicit false

namespace Elf64.Output.Sink

/-- How many more bytes the sink takes in all, if there is a limit. A sink whose writes take no byte
takes nothing at all. -/
def room (sink : Sink) : Option Nat :=
  if sink.chunk = some 0 then some 0 else sink.capacity.map (· - sink.stored.size)

/-- The front of a buffer that there is room for. -/
def share (sink : Sink) (buffer : Bytes) : Bytes :=
  match sink.room with
  | none => buffer
  | some room => buffer.take room

/-- What a write fails with when no byte can be taken. -/
def shortage (sink : Sink) : Fault := if sink.temper = .stalling then .stalled else .full

/-- The later sink has stored these bytes more, in any number of writes. -/
def Stores (sink : Sink) (bytes : Bytes) (later : Sink) : Prop :=
  ∃ writes, later = { sink with stored := sink.stored.appendList bytes, writes }

variable {sink next later : Sink} {buffer first rest : Bytes} {fault : Fault} {count : Nat}

theorem Stores.refl (sink : Sink) : sink.Stores [] sink := ⟨sink.writes, by simp⟩

theorem Stores.trans (here : sink.Stores first next) (there : next.Stores rest later) :
    sink.Stores (first ++ rest) later := by
  obtain ⟨_, rfl⟩ := here
  obtain ⟨writes, rfl⟩ := there
  have joined : (sink.stored.appendList first).appendList rest = sink.stored.appendList (first ++ rest) :=
    Array.ext' (by simp)
  exact ⟨writes, by rw [← joined]⟩

theorem Stores.agree (here : sink.Stores buffer next) (there : sink.Stores buffer later) :
    ∃ writes, later = { next with writes } := by
  obtain ⟨_, rfl⟩ := here
  obtain ⟨writes, rfl⟩ := there
  exact ⟨writes, rfl⟩

theorem Stores.stored (stores : sink.Stores buffer next) :
    next.stored.toList = sink.stored.toList ++ buffer := by
  obtain ⟨_, rfl⟩ := stores
  simp

theorem Stores.shortage (stores : sink.Stores buffer next) : next.shortage = sink.shortage := by
  obtain ⟨_, rfl⟩ := stores
  rfl

theorem Stores.flush (stores : sink.Stores buffer next) : next.flush = sink.flush := by
  obtain ⟨_, rfl⟩ := stores
  rfl

theorem Stores.size (stores : sink.Stores buffer next) :
    next.stored.size = sink.stored.size + buffer.length := by
  rw [← Array.length_toList, stores.stored, List.length_append, Array.length_toList]

theorem Stores.room (stores : sink.Stores buffer next) :
    next.room = sink.room.map (· - buffer.length) := by
  have size := stores.size
  obtain ⟨_, rfl⟩ := stores
  unfold Sink.room
  split
  · simp
  · simp only [size, Option.map_map, Function.comp_def, Nat.sub_sub]

theorem Stores.share (stores : sink.Stores first next) (buffer : Bytes) :
    next.share (buffer.drop first.length) = (sink.share buffer).drop first.length := by
  unfold Sink.share
  rw [stores.room]
  cases sink.room with
  | none => rfl
  | some room => exact List.drop_take.symm

theorem share_isPrefix (sink : Sink) (buffer : Bytes) : sink.share buffer <+: buffer := by
  unfold Sink.share
  split
  · exact List.prefix_refl buffer
  · exact List.take_prefix _ buffer

theorem length_share_lt (short : sink.share buffer ≠ buffer) : (sink.share buffer).length < buffer.length :=
  Nat.lt_of_le_of_ne (sink.share_isPrefix buffer).length_le
    fun same => short ((sink.share_isPrefix buffer).eq_of_length same)

theorem share_of_room_eq_none (endless : sink.room = none) (buffer : Bytes) :
    sink.share buffer = buffer := by
  rw [Sink.share, endless]

theorem share_eq_self_iff_le : sink.share buffer = buffer ↔ ∀ room ∈ sink.room, buffer.length ≤ room := by
  unfold Sink.share
  cases sink.room with
  | none => simp
  | some room => simp

theorem share_append_of_whole (whole : sink.share first = first) (stores : sink.Stores first next)
    (rest : Bytes) : sink.share (first ++ rest) = first ++ next.share rest := by
  rw [share_eq_self_iff_le] at whole
  unfold Sink.share
  rw [stores.room]
  cases limit : sink.room with
  | none => rfl
  | some room =>
    have fits := whole room limit
    simp [List.take_append, List.take_of_length_le fits]

-- What comes behind a buffer does not matter to a sink that has too little room for the buffer.
theorem share_append_of_short (short : sink.share first ≠ first) (rest : Bytes) :
    sink.share (first ++ rest) = sink.share first := by
  unfold Sink.share at short ⊢
  cases limit : sink.room with
  | none => simp [limit] at short
  | some room =>
    have lacking : room < first.length := by simpa [limit] using short
    exact List.take_append_of_le_length (Nat.le_of_lt lacking)

/-! ## One write -/

theorem stores_of_interrupted (interrupted : sink.write buffer = (.interrupted, next)) :
    sink.Stores [] next := by
  unfold write at interrupted
  split at interrupted
  · obtain ⟨-, rfl⟩ := Prod.mk.inj interrupted
    exact ⟨sink.writes + 1, by simp⟩
  · obtain ⟨reply, -⟩ := Prod.mk.inj interrupted
    split at reply <;> contradiction

-- A write that is not interrupted stores what it accepts of the buffer, which may be nothing.
theorem stores_of_refused (refused : sink.write buffer = (.refused fault, next)) :
    sink.Stores [] next ∧ sink.acceptable buffer = [] ∧ buffer ≠ [] ∧ fault = sink.shortage := by
  unfold write at refused
  split at refused
  · simp at refused
  · obtain ⟨reply, rfl⟩ := Prod.mk.inj refused
    split at reply
    · next nothing =>
      simp only [Bool.and_eq_true, List.isEmpty_iff, Bool.not_eq_true', bne_iff_ne, ne_eq] at nothing
      obtain ⟨⟨empty, offered⟩, temper⟩ := nothing
      refine ⟨⟨_, by rw [empty]⟩, empty, by simpa using offered, ?_⟩
      rw [Sink.shortage, if_neg temper]
      exact (Reply.refused.inj reply).symm
    · contradiction

theorem stores_of_accepted (accepted : sink.write buffer = (.accepted count, next)) :
    sink.Stores (sink.acceptable buffer) next ∧ count = (sink.acceptable buffer).length ∧
      (count = 0 → buffer ≠ [] → sink.temper = .stalling) := by
  unfold write at accepted
  split at accepted
  · simp at accepted
  · obtain ⟨reply, rfl⟩ := Prod.mk.inj accepted
    split at reply
    · contradiction
    · next something =>
      obtain rfl := Reply.accepted.inj reply
      refine ⟨⟨_, rfl⟩, rfl, fun none offered => ?_⟩
      simpa [List.length_eq_zero_iff.mp none, offered] using something

theorem acceptable_prefix (sink : Sink) (buffer : Bytes) : sink.acceptable buffer <+: buffer := by
  unfold acceptable
  split
  · exact List.prefix_refl buffer
  · exact List.take_prefix _ buffer

-- One write takes no more than there is room for.
theorem acceptable_prefix_share (sink : Sink) (buffer : Bytes) :
    sink.acceptable buffer <+: sink.share buffer := by
  obtain ⟨capacity, chunk, temper, flushFails, stored, writes⟩ := sink
  rcases capacity with _ | capacity <;> rcases chunk with _ | _ | chunk <;>
    simp [acceptable, limit, share, room, List.take_prefix, List.take_prefix_take_left (Nat.min_le_left _ _)]

-- A write that accepts nothing leaves no hope for the next one.
theorem share_eq_nil (nothing : sink.acceptable buffer = []) (offered : buffer ≠ []) :
    sink.share buffer = [] := by
  obtain ⟨capacity, chunk, temper, flushFails, stored, writes⟩ := sink
  rcases capacity with _ | capacity <;> rcases chunk with _ | _ | chunk <;>
    simp_all [acceptable, limit, share, room]

theorem share_nil (sink : Sink) : sink.share [] = [] := by
  unfold share
  split <;> simp

theorem share_eq (stores : sink.Stores (sink.acceptable buffer) next) : sink.share buffer =
    sink.acceptable buffer ++ next.share (buffer.drop (sink.acceptable buffer).length) := by
  rw [stores.share]
  exact (List.prefix_iff_eq_append.mp (sink.acceptable_prefix_share buffer)).symm

-- The share and the buffer go on behind the same piece.
theorem share_eq_self_iff (stores : sink.Stores (sink.acceptable buffer) next) : sink.share buffer = buffer ↔
    next.share (buffer.drop (sink.acceptable buffer).length) =
      buffer.drop (sink.acceptable buffer).length := by
  have split := List.prefix_iff_eq_append.mp (sink.acceptable_prefix buffer)
  rw [share_eq stores]
  generalize sink.acceptable buffer = piece at split ⊢
  constructor
  · intro same
    exact List.append_cancel_left (same.trans split.symm)
  · intro same
    rw [same, split]

/-! ## All bytes -/

-- The recursion is that of the writes: what one of them leaves over is offered to the next.
theorem writeAll_eq (sink : Sink) (buffer : Bytes) : ∃ next, sink.Stores (sink.share buffer) next ∧
    sink.writeAll buffer =
      (if sink.share buffer = buffer then .ok () else .error sink.shortage, next) := by
  fun_induction writeAll sink buffer with
  | case1 sink =>
    rw [sink.share_nil]
    exact ⟨sink, .refl sink, rfl⟩
  | case2 sink first rest later reply ih =>
    have stores := stores_of_interrupted reply
    have same : later.share (first :: rest) = sink.share (first :: rest) := stores.share _
    obtain ⟨next, behind, done⟩ := ih
    rw [same] at behind done
    exact ⟨next, stores.trans behind, by rw [done, stores.shortage]⟩
  | case3 sink first rest fault next reply =>
    obtain ⟨stores, nothing, offered, rfl⟩ := stores_of_refused reply
    have empty := share_eq_nil nothing offered
    exact ⟨next, empty ▸ stores, by simp [empty]⟩
  | case4 sink first rest next reply =>
    obtain ⟨stores, length, stalled⟩ := stores_of_accepted reply
    have nothing := List.length_eq_zero_iff.mp length.symm
    have empty := share_eq_nil nothing (List.cons_ne_nil first rest)
    rw [nothing] at stores
    have stalling := stalled rfl (List.cons_ne_nil first rest)
    exact ⟨next, empty ▸ stores, by simp [empty, shortage, stalling]⟩
  | case5 sink first rest count later reply ih =>
    obtain ⟨stores, length, -⟩ := stores_of_accepted reply
    have kept := share_eq stores
    have done := share_eq_self_iff stores
    rw [← length] at kept done
    obtain ⟨next, behind, ih⟩ := ih
    exact ⟨next, kept ▸ stores.trans behind, by simpa [done, stores.shortage] using ih⟩

end Elf64.Output.Sink
