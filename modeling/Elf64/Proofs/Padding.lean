import Mathlib.Algebra.Ring.Nat
import Elf64.Proofs.Writer

/-! Filling with zeros.

Up to a position a writer fills with zeros in blocks, until the position is reached or the sink refuses.
The blocks leave no trace: what is stored, and whether that succeeds, is as if all zeros were written at once,
or in pieces of any other lengths (`Writer.padding`). Only the position after a failure tells how many
blocks were taken as a whole. It never passes the target, so that it fits 64 bits if the target does. -/

set_option autoImplicit false

namespace Elf64.Output.Writer

variable {writer : Writer} {target count : Nat} {bytes : Bytes} {outcome other : Outcome Writer Unit}

/-! ## The rounds of the loop -/

/-- What the loop comes to, and after how many rounds. A round writes one block, and there is another
one as long as the writer is short of the target. -/
inductive Rounds (target : Nat) : Nat → Writer → Outcome Writer Unit → Prop where
  | reached {writer : Writer} (there : target ≤ writer.position) : Rounds target 0 writer (.ok (), writer)
  | refused {writer : Writer} (short : writer.position < target)
      (failed : ¬ (writer.writeBytes (writer.nextBlock target)).1.isOk) :
      Rounds target 1 writer (writer.writeBytes (writer.nextBlock target))
  | filled {writer : Writer} {count : Nat} {outcome : Outcome Writer Unit} (short : writer.position < target)
      (taken : (writer.writeBytes (writer.nextBlock target)).1.isOk)
      (later : Rounds target count (writer.writeBytes (writer.nextBlock target)).2 outcome) :
      Rounds target (count + 1) writer outcome

theorem rounds_padTo (writer : Writer) (target : Nat) :
    ∃ count, Rounds target count writer (writer.padTo target) := by
  fun_induction padTo writer target with
  | case1 writer short outcome taken ih =>
    obtain ⟨count, later⟩ := ih
    exact ⟨count + 1, .filled short taken later⟩
  | case2 writer short outcome failed => exact ⟨1, .refused short failed⟩
  | case3 writer reached => exact ⟨0, .reached (Nat.le_of_not_lt reached)⟩

theorem position_of_taken (taken : (writer.writeBytes (writer.nextBlock target)).1.isOk) :
    (writer.writeBytes (writer.nextBlock target)).2.position =
      writer.position + min (target - writer.position) blockSize := by
  rw [position_writeBytes, taken, cond_true, length_nextBlock]

-- Each round but the last one takes a full block off the gap.
theorem Rounds.count_le (rounds : Rounds target count writer outcome) :
    count ≤ (target - writer.position + (blockSize - 1)) / blockSize := by
  induction rounds with
  | reached => exact Nat.zero_le _
  | refused short failed =>
    simp only [blockSize]
    omega
  | filled short taken later ih =>
    rw [position_of_taken taken] at ih
    simp only [blockSize] at ih ⊢
    omega

-- A failure comes in the block behind the full ones.
theorem Rounds.of_failed (rounds : Rounds target count writer outcome) (failed : ¬ outcome.1.isOk) :
    ∃ full, outcome.2.position = writer.position + full * blockSize ∧ outcome.2.position < target ∧
      writer.sink.stored.size + full * blockSize ≤ outcome.2.sink.stored.size ∧
      outcome.2.sink.stored.size < writer.sink.stored.size + (full + 1) * blockSize := by
  induction rounds with
  | reached => contradiction
  | @refused writer short =>
    have emits := writer.emits_writeBytes (writer.nextBlock target)
    have still : (writer.writeBytes (writer.nextBlock target)).2.position = writer.position := by
      rw [position_writeBytes, eq_false_of_ne_true failed, cond_false, Nat.add_zero]
    have lacking := Sink.length_share_lt (emits.isOk_iff.not.mp failed)
    have size := emits.stores.size
    rw [length_nextBlock] at lacking
    exact ⟨0, by omega, by omega, by omega, by omega⟩
  | @filled writer _ outcome short taken later ih =>
    obtain ⟨full, position, below, least, most⟩ := ih failed
    have emits := writer.emits_writeBytes (writer.nextBlock target)
    have size := emits.stores.size
    rw [emits.isOk_iff.mp taken, length_nextBlock] at size
    -- The writer is still short of the target, so this block was a full one.
    have moved := position_of_taken taken
    simp only [blockSize] at *
    exact ⟨full + 1, by omega, below, by omega, by omega⟩

/-! ## Zeros in other pieces -/

/-- The answers and the bytes that are stored agree, and after a success the positions. How often the sink
was written to may differ. -/
structure SameEffect (first second : Outcome Writer Unit) : Prop where
  answer : first.1 = second.1
  sink : ∃ writes, second.2.sink = { first.2.sink with writes }
  order : first.2.order = second.2.order
  position : first.1.isOk → first.2.position = second.2.position

theorem Emits.sameEffect (here : writer.Emits bytes outcome) (there : writer.Emits bytes other) :
    SameEffect outcome other where
  answer := here.answer_eq.trans there.answer_eq.symm
  sink := here.stores.agree there.stores
  order := here.order_eq.trans there.order_eq.symm
  position := fun taken =>
    (here.position_eq taken).trans (there.position_eq (there.isOk_iff.mpr (here.isOk_iff.mp taken))).symm

/-- Writes zeros in pieces of these lengths. -/
def writeZeros : List Nat → Writer → Outcome Writer Unit
  | [], writer => (.ok (), writer)
  | length :: rest, writer =>
    (writer.writeBytes (.replicate length 0)).andThen fun _ writer => writeZeros rest writer

theorem emits_writeZeros (lengths : List Nat) (writer : Writer) :
    writer.Emits (.replicate lengths.sum 0) (writer.writeZeros lengths) := by
  induction lengths generalizing writer with
  | nil => exact writer.emits_nil
  | cons length rest ih =>
    rw [List.sum_cons, ← List.replicate_append_replicate]
    exact (writer.emits_writeBytes _).andThen fun next _ _ => ih next

theorem emits_padTo_padTo (writer : Writer) (target later : Nat) :
    writer.Emits (.replicate (max target later - writer.position) 0)
      ((writer.padTo target).andThen fun _ next => next.padTo later) := by
  have gaps : max target later - writer.position = target - writer.position +
      (later - (writer.position + (target - writer.position))) := by omega
  rw [gaps, ← List.replicate_append_replicate]
  refine (writer.emits_padTo target).andThen fun next _ position => ?_
  rw [List.length_replicate] at position
  exact position ▸ next.emits_padTo later

/-! ## All cases -/

/-- What filling with zeros up to a target comes to. -/
structure Padding (writer : Writer) (target : Nat) (outcome : Outcome Writer Unit) : Prop where
  /-- The loop ends, after no more rounds than there are blocks in the gap. -/
  ends : ∃ count, Rounds target count writer outcome ∧
    count ≤ (target - writer.position + (blockSize - 1)) / blockSize
  /-- If the sink has room for the gap, the gap is filled. -/
  whole : (∀ room ∈ writer.sink.room, target - writer.position ≤ room) →
    outcome.1 = .ok () ∧
    outcome.2.sink.stored.toList =
      writer.sink.stored.toList ++ .replicate (target - writer.position) 0 ∧
    outcome.2.position = max writer.position target
  /-- If it has not, the room is filled, and the position counts the blocks that were taken as a whole. -/
  part : ∀ room ∈ writer.sink.room, room < target - writer.position →
    outcome.1 = .error (.output writer.sink.shortage) ∧
    outcome.2.sink.stored.toList = writer.sink.stored.toList ++ .replicate room 0 ∧
    outcome.2.position = writer.position + room / blockSize * blockSize ∧
    outcome.2.position < target
  plain : SameEffect outcome (writer.writeBytes (.replicate (target - writer.position) 0))
  /-- The division into blocks does not matter. -/
  divided : ∀ lengths : List Nat, lengths.sum = target - writer.position →
    SameEffect outcome (writer.writeZeros lengths)
  twice : ∀ later, SameEffect (outcome.andThen fun _ next => next.padTo later)
    (writer.padTo (max target later))

theorem position_of_lack {room : Nat} (limit : writer.sink.room = some room)
    (lacking : room < target - writer.position) :
    (writer.padTo target).2.position = writer.position + room / blockSize * blockSize ∧
      (writer.padTo target).2.position < target := by
  obtain ⟨answer, stores⟩ := (writer.emits_padTo target).of_lack limit (by simpa using lacking)
  obtain ⟨count, rounds⟩ := writer.rounds_padTo target
  obtain ⟨full, position, below, least, most⟩ := rounds.of_failed (by rw [answer]; nofun)
  have size := stores.size
  rw [List.length_take, List.length_replicate] at size
  have blocks : room / blockSize = full := by
    simp only [blockSize] at *
    omega
  exact ⟨blocks ▸ position, below⟩

/-- Filling with zeros in blocks is as good as writing all zeros at once. -/
theorem padding (writer : Writer) (target : Nat) : Padding writer target (writer.padTo target) where
  ends := by
    obtain ⟨count, rounds⟩ := writer.rounds_padTo target
    exact ⟨count, rounds, rounds.count_le⟩
  whole := by
    intro enough
    obtain ⟨answer, stored, position⟩ := (writer.emits_padTo target).of_room (by simpa using enough)
    rw [List.length_replicate] at position
    exact ⟨answer, stored, by omega⟩
  part := by
    intro room limit lacking
    obtain ⟨answer, stores⟩ := (writer.emits_padTo target).of_lack limit (by simpa using lacking)
    have stored := stores.stored
    rw [List.take_replicate, Nat.min_eq_left (Nat.le_of_lt lacking)] at stored
    exact ⟨answer, stored, position_of_lack limit lacking⟩
  plain := (writer.emits_padTo target).sameEffect (writer.emits_writeBytes _)
  divided := fun lengths sum => (writer.emits_padTo target).sameEffect (sum ▸ writer.emits_writeZeros lengths)
  twice := fun later => (writer.emits_padTo_padTo target later).sameEffect (writer.emits_padTo _)

-- The bytes that there is room for go in with three writes and do not make up a block.
example :
    let sink : Sink := { capacity := some 6, chunk := some 2, temper := .stalling, stored := #[0xaa] }
    let outcome := padTo { sink, position := 1 } 9
    outcome.1 = .error (.output .stalled) ∧ outcome.2.position = 1 ∧
      outcome.2.sink.stored = #[0xaa, 0, 0, 0, 0, 0] := by
  cbv

end Elf64.Output.Writer
