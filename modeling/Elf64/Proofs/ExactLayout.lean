import Elf64.Proofs.MinimalLayout

/-! The layout in natural numbers.

Offsets are bounded while sections are placed, in the middle of the work as well as in the end. The sums
in the middle can be out of bounds only where the end is, since alignments are at most half of the
range of offsets (`placeAll_total`). So placing agrees with a layout that knows no bounds. -/

set_option autoImplicit false

namespace Elf64

/-- Where a section ends that is placed at the first position behind the cursor that it can have. -/
def SectionHeader.ending (header : SectionHeader) (size cursor : Nat) : Nat :=
  if header.occupiesFile then alignUp cursor header.addralign.toNat + size else cursor

/-- Where the last of the sections ends that are placed from the cursor on. -/
def layoutEnd (sizeOf : Section → Nat) (cursor : Nat) (entries : List Section) : Nat :=
  entries.foldl (fun cursor entry => entry.header.ending (sizeOf entry) cursor) cursor

section

variable {header : SectionHeader} {sizeOf : Section → Nat} {cursor size last : Nat}
  {entries old new : List Section}

theorem SectionHeader.le_ending (header : SectionHeader) (size cursor : Nat) :
    cursor ≤ header.ending size cursor := by
  unfold ending
  split
  · exact Nat.le_trans (le_alignUp cursor _) (Nat.le_add_right _ _)
  · exact Nat.le_refl cursor

theorem le_layoutEnd (sizeOf : Section → Nat) (cursor : Nat) (entries : List Section) :
    cursor ≤ layoutEnd sizeOf cursor entries := by
  induction entries generalizing cursor with
  | nil => exact Nat.le_refl cursor
  | cons entry rest ih => exact Nat.le_trans (entry.header.le_ending _ cursor) (ih _)

-- The layout depends neither on the fields that placing stores nor on anything else that it leaves alone.
theorem layoutEnd_of_outline (stable : ∀ entry, sizeOf entry.outline = sizeOf entry)
    (same : new.map Section.outline = old.map Section.outline) (cursor : Nat) :
    layoutEnd sizeOf cursor new = layoutEnd sizeOf cursor old := by
  have view (entries : List Section) :
      layoutEnd sizeOf cursor entries = layoutEnd sizeOf cursor (entries.map Section.outline) := by
    rw [layoutEnd, layoutEnd, List.foldl_map]
    simp only [stable]
    rfl
  rw [view new, view old, same]

theorem Placed.layoutEnd (placed : Placed sizeOf last cursor entries) :
    layoutEnd sizeOf cursor entries = last := by
  induction placed with
  | nil => rfl
  | @cons cursor next entry rest fixed behind ih =>
    have ending : next = entry.header.ending (sizeOf entry) cursor := by
      obtain ⟨-, moved⟩ := SectionHeader.place_eq_ok_iff.mp fixed
      dsimp only at moved
      unfold SectionHeader.ending
      split
      · next occupies =>
        rw [if_pos occupies] at moved
        exact moved.2.1
      · next vacant =>
        rw [if_neg vacant] at moved
        exact moved.1
    rw [← ih, ending]
    rfl

/-! ## Out of bounds -/

-- An alignment of half the range of offsets is passed only from a cursor that is too far already.
theorem SectionHeader.place_total (small : header.addralign.toNat ≤ memoryBound) (size cursor : Nat) :
    (header.place size cursor).1 = .ok (header.ending size cursor) ∨
      memoryBound ≤ header.ending size cursor ∧
        ∃ position, (header.place size cursor).1 = .error (.tooLarge position) := by
  have behind := header.le_ending size cursor
  rw [place_answer]
  dsimp only
  split
  · next beyond =>
    refine .inr ⟨?_, cursor, rfl⟩
    simp only [memoryBound, offsetBound] at *
    omega
  · unfold ending
    split
    · split
      · exact .inl rfl
      · next large =>
        refine .inr ⟨?_, _, rfl⟩
        simp only [memoryBound, offsetBound] at *
        omega
    · exact .inl rfl

theorem placeAll_total (sizeOf : Section → Nat)
    (small : ∀ entry ∈ entries, entry.header.addralign.toNat ≤ memoryBound) (placed : Array Section)
    (cursor : Nat) :
    (placeAll sizeOf placed cursor entries).1 = .ok (layoutEnd sizeOf cursor entries) ∨
      memoryBound ≤ layoutEnd sizeOf cursor entries ∧
        ∃ position, (placeAll sizeOf placed cursor entries).1 = .error (.tooLarge position) := by
  induction entries generalizing placed cursor with
  | nil => exact .inl rfl
  | cons entry rest ih =>
    obtain ⟨here, later⟩ := List.forall_mem_cons.mp small
    rw [placeAll]
    rcases outcome : entry.header.place (sizeOf entry) cursor with ⟨answer, header⟩
    have step := SectionHeader.place_total here (sizeOf entry) cursor
    rw [outcome] at step
    rcases step with next | ⟨large, position, failed⟩
    · obtain rfl : answer = _ := next
      exact ih later _ _
    · -- The sections behind this one end no earlier.
      obtain rfl : answer = _ := failed
      exact .inr ⟨Nat.le_trans large (le_layoutEnd sizeOf _ rest), position, rfl⟩

theorem SectionHeader.addralign_le (valid : header.validate = .ok ()) :
    header.addralign.toNat ≤ memoryBound := by
  by_cases large : 1 < header.addralign.toNat
  · obtain ⟨exponent, power⟩ := power_of_validate valid large
    have bound := header.addralign.toNat_lt
    rw [power] at bound ⊢
    have below : exponent ≤ 63 := Nat.lt_succ_iff.mp ((Nat.pow_lt_pow_iff_right (by decide)).mp bound)
    exact Nat.pow_le_pow_right (by decide) below
  · have one : 1 ≤ memoryBound := by decide
    omega

end

namespace Image

variable {image old new : Image} {size : Nat}

/-- Where the first `count` sections end. -/
def exactEnd (image : Image) (count : Nat) : Nat :=
  layoutEnd image.contentsSize (64 + 64 * image.sections.size) (image.sections.added.toList.take count)

/-- Where all sections end. -/
def exactSize (image : Image) : Nat := image.exactEnd image.sections.added.size

theorem exactSize_eq (image : Image) : image.exactSize =
    layoutEnd image.contentsSize image.contentsStart image.sections.added.toList := by
  rw [exactSize, exactEnd, ← Array.length_toList, List.take_length, contentsStart_eq]

theorem Alike.exactEnd (alike : old.Alike new) : new.exactEnd = old.exactEnd := by
  funext count
  rw [Image.exactEnd, Image.exactEnd, alike.contentsSize, alike.sections.size]
  refine layoutEnd_of_outline (fun entry => rfl) ?_ _
  rw [List.map_take, List.map_take]
  exact congrArg (List.take count) alike.sections.outline

theorem Alike.exactSize (alike : old.Alike new) : new.exactSize = old.exactSize := by
  have count := alike.sections.size
  simp only [SectionTable.size, Nat.add_right_cancel_iff] at count
  rw [Image.exactSize, Image.exactSize, alike.exactEnd, count]

theorem Settled.exactSize (settled : image.Settled size) : image.exactSize = size := by
  rw [exactSize_eq]
  exact settled.placed.layoutEnd

-- What the headers say about the sections in front of an index is exact.
theorem Settled.cursorAt_eq (settled : image.Settled size) (i : Nat) :
    image.cursorAt (i + 1) = image.exactEnd i := by
  have placed := settled.placed
  rw [← List.take_append_drop i image.sections.added.toList] at placed
  obtain ⟨middle, before, -⟩ := placed.of_append
  rw [cursorAt_succ, before.contentsEnd, Image.exactEnd, ← contentsStart_eq, before.layoutEnd]

/-- The layout fails if and only if it is too large. -/
theorem layOut_total (valid : image.sections.validate = .ok ()) :
    image.exactSize < memoryBound ∧ image.layOut.1 = .ok image.exactSize ∨
      memoryBound ≤ image.exactSize ∧ ∃ position, image.layOut.1 = .error (.tooLarge position) := by
  have small : ∀ entry ∈ image.sections.added.toList, entry.header.addralign.toNat ≤ memoryBound := by
    intro entry member
    refine SectionHeader.addralign_le (SectionTable.validate_eq_ok_iff.mp valid _ ?_)
    exact List.mem_cons_of_mem _ (List.mem_map.mpr ⟨entry, member, rfl⟩)
  have total := placeAll_total image.contentsSize small #[] image.contentsStart
  rw [← exactSize_eq] at total
  simp only [layOut]
  rcases outcome : placeAll image.contentsSize #[] image.contentsStart image.sections.added.toList with
    ⟨answer, added⟩
  rw [outcome] at total
  rcases total with last | ⟨large, position, failed⟩
  · obtain rfl : answer = _ := last
    simp only [Outcome.andThen_ok]
    split
    · next inside => exact .inl ⟨inside, rfl⟩
    · next beyond => exact .inr ⟨Nat.le_of_not_lt beyond, _, rfl⟩
  · obtain rfl : answer = _ := failed
    exact .inr ⟨large, position, rfl⟩

end Image

end Elf64
