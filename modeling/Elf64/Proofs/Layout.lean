import Elf64.Image.Layout
import Elf64.Proofs.Sections

/-! Where sections are placed.

`Placed` describes sections that lie one behind the other from a cursor on: placing them again
changes nothing. Placing a list of sections, if it succeeds, makes it so, and changes only the
offsets and sizes of headers, whether it succeeds or not. -/

set_option autoImplicit false

namespace Elf64

theorem le_alignUp (position alignment : Nat) : position ≤ alignUp position alignment := by
  unfold alignUp
  split
  · exact Nat.le_refl position
  · next large =>
    have whole := Nat.div_add_mod (position + (alignment - 1)) alignment
    have rest := Nat.mod_lt (position + (alignment - 1)) (show 0 < alignment by omega)
    -- The quotient times the alignment is all but a remainder, which is below the alignment.
    rw [Nat.mul_comm] at whole
    omega

namespace SectionHeader

variable {header placed : SectionHeader} {size cursor next : Nat}

-- Placing changes neither field that this depends on.
theorem occupiesFile_move (header : SectionHeader) (offset size : UInt64) :
    occupiesFile { header with offset, size } = header.occupiesFile := rfl

/-- When a section can be placed, what its header is then, and where the cursor goes. -/
theorem place_eq_ok_iff : header.place size cursor = (.ok next, placed) ↔
    (1 < header.addralign.toNat → cursor + (header.addralign.toNat - 1) < offsetBound) ∧
      let offset := alignUp cursor header.addralign.toNat
      if header.occupiesFile then
        offset + size < offsetBound ∧ next = offset + size ∧
          placed = { header with offset := .ofNat offset, size := .ofNat size }
      else next = cursor ∧ placed = { header with offset := .ofNat offset } := by
  simp only [place, occupiesFile_move]
  constructor
  · intro done
    split at done
    · simp at done
    · next fits =>
      refine ⟨fun large => Nat.lt_of_not_le fun beyond => fits ⟨large, beyond⟩, ?_⟩
      split at done
      · next occupies =>
        rw [if_pos occupies]
        split at done
        · next bounded =>
          obtain ⟨⟨⟩, rfl⟩ := Prod.mk.inj done
          exact ⟨bounded, rfl, rfl⟩
        · simp at done
      · next vacant =>
        rw [if_neg vacant]
        obtain ⟨⟨⟩, rfl⟩ := Prod.mk.inj done
        exact ⟨rfl, rfl⟩
  · rintro ⟨fits, rest⟩
    rw [if_neg fun beyond => Nat.not_le_of_lt (fits beyond.1) beyond.2]
    split at rest
    · next occupies =>
      obtain ⟨bounded, rfl, rfl⟩ := rest
      rw [if_pos occupies, if_pos bounded]
    · next vacant =>
      obtain ⟨rfl, rfl⟩ := rest
      rw [if_neg vacant]

-- Placing looks at no field that it stores.
theorem place_place (header : SectionHeader) (size cursor : Nat) :
    (header.place size cursor).2.place size cursor = header.place size cursor := by
  by_cases steep : 1 < header.addralign.toNat ∧ offsetBound ≤ cursor + (header.addralign.toNat - 1)
  · simp only [place, if_pos steep]
  · by_cases occupies : header.occupiesFile
    · by_cases bounded : alignUp cursor header.addralign.toNat + size < offsetBound
      · simp only [place, if_neg steep, occupiesFile_move, if_pos occupies, if_pos bounded]
      · simp only [place, if_neg steep, occupiesFile_move, if_pos occupies, if_neg bounded]
    · simp only [place, if_neg steep, occupiesFile_move, if_neg occupies]

theorem place_again (done : header.place size cursor = (.ok next, placed)) :
    placed.place size cursor = (.ok next, placed) := by
  have again := header.place_place size cursor
  rwa [done] at again

/-- Whether a section can be placed or not, no field but its offset and its size changes, and the size
only if the section occupies the file. -/
theorem place_keeps (header : SectionHeader) (room cursor : Nat) :
    ∃ offset size, (header.place room cursor).2 = { header with offset, size } ∧
      (¬ header.occupiesFile → size = header.size) := by
  simp only [place]
  split
  · exact ⟨header.offset, header.size, rfl, fun _ => rfl⟩
  · split
    · next occupies =>
      rw [occupiesFile_move] at occupies
      split <;> exact ⟨_, _, rfl, fun vacant => absurd occupies vacant⟩
    · exact ⟨_, header.size, rfl, fun _ => rfl⟩

end SectionHeader

/-- Sections that lie one behind the other, from a cursor to the last byte of the file. -/
inductive Placed (sizeOf : Section → Nat) (last : Nat) : Nat → List Section → Prop where
  | nil : Placed sizeOf last last []
  | cons {cursor next : Nat} {entry : Section} {rest : List Section}
      (fixed : entry.header.place (sizeOf entry) cursor = (.ok next, entry.header))
      (behind : Placed sizeOf last next rest) : Placed sizeOf last cursor (entry :: rest)

section

variable {sizeOf : Section → Nat} {placed added : Array Section} {cursor last : Nat}
  {entries : List Section}

theorem placeAll_of_placed (inPlace : Placed sizeOf last cursor entries) :
    placeAll sizeOf placed cursor entries = (.ok last, placed.appendList entries) := by
  induction inPlace generalizing placed with
  | nil => simp [placeAll]
  | cons fixed behind ih => simp [placeAll, fixed, ih]

-- The size of a section must not depend on its header, which placing changes.
theorem placed_of_placeAll (stable : ∀ entry header, sizeOf { entry with header } = sizeOf entry)
    (done : placeAll sizeOf placed cursor entries = (.ok last, added)) :
    ∃ new, added.toList = placed.toList ++ new ∧ Placed sizeOf last cursor new := by
  induction entries generalizing placed cursor with
  | nil =>
    obtain ⟨same, rfl⟩ := Prod.mk.inj done
    obtain rfl := Except.ok.inj same
    exact ⟨[], by simp, .nil⟩
  | cons entry rest ih =>
    rw [placeAll] at done
    split at done
    · next next header here =>
      obtain ⟨new, order, behind⟩ := ih done
      refine ⟨{ entry with header } :: new, by simp [order], .cons ?_ behind⟩
      rw [stable]
      exact SectionHeader.place_again here
    · simp at done

-- What does not depend on offsets, nor on the size of what occupies the file, is the same behind as
-- before.
theorem map_placeAll {α : Type} {view : Section → α}
    (blind : ∀ entry offset size, (¬ entry.header.occupiesFile → size = entry.header.size) →
      view { entry with header := { entry.header with offset, size } } = view entry)
    (sizeOf : Section → Nat) (placed : Array Section) (cursor : Nat) (entries : List Section) :
    (placeAll sizeOf placed cursor entries).2.toList.map view =
      (placed.toList ++ entries).map view := by
  induction entries generalizing placed cursor with
  | nil => simp [placeAll]
  | cons entry rest ih =>
    obtain ⟨offset, size, kept, vacant⟩ := entry.header.place_keeps (sizeOf entry) cursor
    have same := blind entry offset size vacant
    rw [placeAll]
    split
    · next header here =>
      obtain rfl : header = _ := here ▸ kept
      simp [ih, same]
    · next header here =>
      obtain rfl : header = _ := here ▸ kept
      simp [same]

end

end Elf64
