import Elf64.Output.Writer
import Elf64.Proofs.Records
import Elf64.Proofs.Sinks

/-! What the operations of a writer come to.

One operation may take many writes, and the sink may cut each of them short. Either all bytes of the operation
go through, or it fails, as many of them are stored as there is room for and the position stays behind
(`Writer.Emits`). On a sink that takes every byte that it is offered no operation fails, as long as the
numbers written fit their fields.
`Holds` keeps what went through so far and the position in step; every operation appends its bytes. -/

set_option autoImplicit false

namespace Elf64.Output

namespace Writer

variable {writer : Writer} {order : ByteOrder} {bytes more : Bytes}

/-! ## One operation -/

/-- These bytes have gone through, or the sink has taken what it has room for and the position counts a part. -/
inductive Emits (writer : Writer) (bytes : Bytes) : Outcome Writer Unit → Prop where
  | whole (sink : Sink) (fits : writer.sink.share bytes = bytes) (stores : writer.sink.Stores bytes sink) :
      Emits writer bytes (.ok (), { writer with sink, position := writer.position + bytes.length })
  | part (sink : Sink) (counted : Nat) (short : writer.sink.share bytes ≠ bytes)
      (stores : writer.sink.Stores (writer.sink.share bytes) sink)
      (covered : counted ≤ (writer.sink.share bytes).length) :
      Emits writer bytes (.error (.output writer.sink.shortage),
        { writer with sink, position := writer.position + counted })

theorem room_ne_none_of_short (short : writer.sink.share bytes ≠ bytes) : writer.sink.room ≠ none :=
  fun endless => short (Sink.share_of_room_eq_none endless bytes)

section

variable {first outcome : Outcome Writer Unit}

theorem Emits.answer_eq (emits : writer.Emits bytes first) : first.1 =
    if writer.sink.share bytes = bytes then .ok () else .error (.output writer.sink.shortage) := by
  cases emits with
  | whole sink fits => rw [if_pos fits]
  | part sink counted short => rw [if_neg short]

theorem Emits.isOk_iff (emits : writer.Emits bytes first) :
    first.1.isOk ↔ writer.sink.share bytes = bytes := by
  cases emits with
  | whole sink fits => exact iff_of_true rfl fits
  | part sink counted short => exact iff_of_false nofun short

theorem Emits.stores (emits : writer.Emits bytes first) :
    writer.sink.Stores (writer.sink.share bytes) first.2.sink := by
  cases emits with
  | whole sink fits stores => exact fits.symm ▸ stores
  | part sink counted short stores => exact stores

theorem Emits.order_eq (emits : writer.Emits bytes first) : first.2.order = writer.order := by
  cases emits <;> rfl

theorem Emits.position_eq (emits : writer.Emits bytes first) (taken : first.1.isOk) :
    first.2.position = writer.position + bytes.length := by
  cases emits with
  | whole => rfl
  | part => contradiction

theorem Emits.of_room (emits : writer.Emits bytes first)
    (enough : ∀ room ∈ writer.sink.room, bytes.length ≤ room) :
    first.1 = .ok () ∧ first.2.sink.stored.toList = writer.sink.stored.toList ++ bytes ∧
      first.2.position = writer.position + bytes.length := by
  have fits := Sink.share_eq_self_iff_le.mpr enough
  refine ⟨emits.answer_eq.trans (if_pos fits), ?_, emits.position_eq (emits.isOk_iff.mpr fits)⟩
  rw [emits.stores.stored, fits]

theorem Emits.of_lack {room : Nat} (emits : writer.Emits bytes first)
    (limit : writer.sink.room = some room) (lacking : room < bytes.length) :
    first.1 = .error (.output writer.sink.shortage) ∧
      writer.sink.Stores (bytes.take room) first.2.sink := by
  have share : writer.sink.share bytes = bytes.take room := by rw [Sink.share, limit]
  have short : writer.sink.share bytes ≠ bytes := fun all =>
    Nat.not_le_of_lt lacking (Sink.share_eq_self_iff_le.mp all room limit)
  exact ⟨emits.answer_eq.trans (if_neg short), share ▸ emits.stores⟩

-- What is left of the room behind the first bytes decides about the rest.
theorem Emits.append (emits : writer.Emits bytes first) (taken : first.1.isOk)
    (later : first.2.Emits more outcome) : writer.Emits (bytes ++ more) outcome := by
  cases emits with
  | part => contradiction
  | whole sink fits stores =>
    have shared := Sink.share_append_of_whole fits stores more
    cases later with
    | whole last fills behind =>
      have both := Emits.whole last (by rw [shared, fills]) (stores.trans behind)
      rwa [List.length_append, ← Nat.add_assoc] at both
    | part last counted short behind covered =>
      have lacking : writer.sink.share (bytes ++ more) ≠ bytes ++ more :=
        fun all => short (List.append_cancel_left (shared.symm.trans all))
      have both := Emits.part last (bytes.length + counted) lacking (shared ▸ stores.trans behind)
        (by rw [shared, List.length_append]; exact Nat.add_le_add_left covered _)
      rwa [← Nat.add_assoc, ← stores.shortage] at both

theorem Emits.extend (emits : writer.Emits bytes first) (refused : ¬ first.1.isOk) (more : Bytes) :
    writer.Emits (bytes ++ more) first := by
  cases emits with
  | whole => contradiction
  | part sink counted short stores covered =>
    have shared := Sink.share_append_of_short short more
    refine .part sink counted (fun all => ?_) (shared ▸ stores) (shared ▸ covered)
    have lacking := Sink.length_share_lt short
    rw [← shared, all, List.length_append] at lacking
    omega

theorem Emits.andThen {step : Unit → Writer → Outcome Writer Unit} (emits : writer.Emits bytes first)
    (steps : ∀ next : Writer, next.order = writer.order →
      next.position = writer.position + bytes.length → next.Emits more (step () next)) :
    writer.Emits (bytes ++ more) (first.andThen step) := by
  obtain ⟨answer, next⟩ := first
  cases answer with
  | ok => exact emits.append rfl (steps next emits.order_eq (emits.position_eq rfl))
  | error e => exact emits.extend nofun more

end

theorem emits_nil (writer : Writer) : writer.Emits [] (.ok (), writer) :=
  .whole writer.sink writer.sink.share_nil (.refl _)

theorem emits_writeBytes (writer : Writer) (content : Bytes) :
    writer.Emits content (writer.writeBytes content) := by
  obtain ⟨next, stores, done⟩ := writer.sink.writeAll_eq content
  simp only [writeBytes, done]
  by_cases all : writer.sink.share content = content
  · rw [if_pos all]
    exact .whole next all (all ▸ stores)
  · rw [if_neg all]
    exact .part next 0 all stores (Nat.zero_le _)

theorem emits_writeField {field : Field} (fits : field.Fits) (writer : Writer) :
    writer.Emits (field.encode writer.order) (writer.writeField field) := by
  cases field with
  | bytes content => exact writer.emits_writeBytes content
  | number v =>
    have checked : v.check = .ok () := by simpa [FixedInt.check, Field.Fits] using fits
    simp only [writeField, writeValue, checked]
    exact writer.emits_writeBytes _

theorem emits_writeRecord {record : Record} (fits : record.Fits) (writer : Writer) :
    writer.Emits (record.encode writer.order) (writer.writeRecord record) := by
  induction record generalizing writer with
  | nil => exact writer.emits_nil
  | cons field rest ih =>
    obtain ⟨here, later⟩ := List.forall_mem_cons.mp fits
    exact (emits_writeField here writer).andThen fun next order _ => order ▸ ih later next

-- A block and the zeros behind it make up the gap.
theorem replicate_gap (writer : Writer) (target : Nat) :
    List.replicate (target - writer.position) 0 = writer.nextBlock target ++
      .replicate (target - (writer.position + (writer.nextBlock target).length)) 0 := by
  rw [length_nextBlock, nextBlock, List.replicate_append_replicate]
  congr 1
  omega

theorem emits_padTo (writer : Writer) (target : Nat) :
    writer.Emits (.replicate (target - writer.position) 0) (writer.padTo target) := by
  fun_induction padTo writer target with
  | case1 writer short outcome taken ih =>
    have block : writer.Emits _ outcome := writer.emits_writeBytes (writer.nextBlock target)
    rw [replicate_gap, ← block.position_eq taken]
    exact block.append taken ih
  | case2 writer short outcome refused =>
    have block : writer.Emits _ outcome := writer.emits_writeBytes (writer.nextBlock target)
    rw [replicate_gap]
    exact block.extend refused _
  | case3 writer reached =>
    rw [Nat.sub_eq_zero_of_le (Nat.le_of_not_lt reached)]
    exact writer.emits_nil

theorem emits_writeRecords {records : List Record} (fits : ∀ record ∈ records, record.Fits)
    (writer : Writer) :
    writer.Emits (records.flatMap (Record.encode writer.order)) (writer.writeRecords records) := by
  induction records generalizing writer with
  | nil => exact writer.emits_nil
  | cons record rest ih =>
    obtain ⟨here, later⟩ := List.forall_mem_cons.mp fits
    exact (emits_writeRecord here writer).andThen fun next order _ => order ▸ ih later next

end Writer

/-! ## Sinks that take everything -/

/-- Every write takes the whole buffer. -/
structure Sink.Eager (sink : Sink) : Prop where
  capacity : sink.capacity = none
  chunk : sink.chunk = none
  temper : sink.temper ≠ .interrupting

namespace Sink

variable {sink next : Sink} {buffer : Bytes}

theorem Eager.room (eager : sink.Eager) : sink.room = none := by
  simp [Sink.room, eager.capacity, eager.chunk]

theorem Eager.of_stores (eager : sink.Eager) (stores : sink.Stores buffer next) : next.Eager := by
  obtain ⟨_, rfl⟩ := stores
  exact ⟨eager.capacity, eager.chunk, eager.temper⟩

end Sink

namespace Writer

/-- The sink has taken exactly these bytes, and will take more. -/
structure Holds (writer : Writer) (order : ByteOrder) (bytes : Bytes) : Prop where
  eager : writer.sink.Eager
  order : writer.order = order
  stored : writer.sink.stored.toList = bytes
  position : writer.position = bytes.length

/-- The operation succeeds, and its writer holds these bytes. -/
def Leaves (outcome : Outcome Writer Unit) (order : ByteOrder) (bytes : Bytes) : Prop :=
  ∃ next, outcome = (.ok (), next) ∧ next.Holds order bytes

variable {writer : Writer} {order : ByteOrder} {bytes more : Bytes}

-- A new writer on a sink without limits.
theorem holds_start (order : ByteOrder) : Holds { sink := {}, order } order [] :=
  ⟨⟨rfl, rfl, nofun⟩, rfl, rfl, rfl⟩

theorem Holds.leaves (holds : writer.Holds order bytes) : Leaves (.ok (), writer) order bytes :=
  ⟨writer, rfl, holds⟩

theorem Leaves.andThen {outcome : Outcome Writer Unit} {step : Unit → Writer → Outcome Writer Unit}
    (leaves : Leaves outcome order bytes)
    (steps : ∀ next : Writer, next.Holds order bytes → Leaves (step () next) order more) :
    Leaves (outcome.andThen step) order more := by
  obtain ⟨next, rfl, holds⟩ := leaves
  exact steps next holds

-- A sink like this has room for all bytes.
theorem Holds.emits (holds : writer.Holds order bytes) {outcome : Outcome Writer Unit}
    (emits : writer.Emits more outcome) : Leaves outcome order (bytes ++ more) := by
  cases emits with
  | part sink counted short => exact absurd holds.eager.room (room_ne_none_of_short short)
  | whole sink fits stores =>
    refine ⟨_, rfl, holds.eager.of_stores stores, holds.order, ?_, ?_⟩
    · rw [stores.stored, holds.stored]
    · rw [holds.position, List.length_append]

theorem Holds.writeRecord (holds : writer.Holds order bytes) {record : Record}
    (fits : record.Fits) : Leaves (writer.writeRecord record) order (bytes ++ record.encode order) :=
  holds.emits (holds.order ▸ emits_writeRecord fits writer)

theorem Holds.writeRecords (holds : writer.Holds order bytes) {records : List Record}
    (fits : ∀ record ∈ records, record.Fits) :
    Leaves (writer.writeRecords records) order (bytes ++ records.flatMap (Record.encode order)) :=
  holds.emits (holds.order ▸ emits_writeRecords fits writer)

theorem Holds.padTo (holds : writer.Holds order bytes) (target : Nat) :
    Leaves (writer.padTo target) order (bytes ++ .replicate (target - bytes.length) 0) :=
  holds.emits (holds.position ▸ writer.emits_padTo target)

end Writer

end Elf64.Output
