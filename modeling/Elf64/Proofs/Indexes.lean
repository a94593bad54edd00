import Mathlib.Tactic.Tauto
import Elf64.Proofs.Capacity

/-! Indexes of sections and references to them.

A symbol refers to its section by index, with the indexes from `SectionRef.reservedLow` on set aside
for other uses. Finalizing bounds the number of sections by what fits the file header, which is more:
the sections with the last indexes can be written, and no symbol can refer to them
(`Run.finalized_indexes`). -/

set_option autoImplicit false

namespace Elf64

theorem SectionRef.check_index_iff {i : Nat} (positive : 1 ≤ i) (fits : i < 0x10000) :
    (index (.ofNat i)).check = .ok () ↔ i < 0xff00 := by
  obtain ⟨n, rfl⟩ : ∃ n : UInt16, n.toNat = i := ⟨.ofNat i, UInt16.toNat_ofNat_of_lt' fits⟩
  rw [UInt16.ofNat_toNat, check_eq_ok_iff, raw]
  unfold ofRaw
  split
  · contradiction
  · decide
  · decide
  · simp only [reservedLow, UInt16.le_iff_toNat_le]
    split
    · next reserved => simpa using reserved
    · next below => simpa using below

namespace Image

variable {image : Image} {name : String} {symbol : Symbol}

-- The place is checked, whatever the other fields are.
theorem addSymbol_at_iff (place : SectionRef) :
    (image.addSymbol name { symbol with definedIn := place }).1.isOk ↔
      (image.addSymbol name { symbol with definedIn := .undefined }).1.isOk ∧ place.check = .ok () := by
  have undefined : SectionRef.undefined.check = .ok () := rfl
  simp only [addSymbol_eq, afterChecks_isOk_iff, SymbolTable.check_eq_ok_iff, Symbol.binding, undefined]
  tauto

end Image

namespace Run

/-- Any section of a finalized image can be referred to if and only if its index is below the reserved
ones, and all of them can be if and only if there are at most that many. -/
theorem finalized_indexes (run : Run) {next : Image} (done : run.image.finalize = (.ok (), next)) :
    next.sections.size < 0x10000 ∧
    (∀ i, 1 ≤ i → i < next.sections.size →
      ((SectionRef.index (.ofNat i)).check = .ok () ↔ i < 0xff00) ∧
      ∀ (name : String) (symbol : Symbol),
        (next.addSymbol name { symbol with definedIn := .undefined }).1.isOk →
        ((next.addSymbol name { symbol with definedIn := .index (.ofNat i) }).1.isOk ↔ i < 0xff00)) ∧
    ((∀ i, 1 ≤ i → i < next.sections.size → (SectionRef.index (.ofNat i)).check = .ok ()) ↔
      next.sections.size ≤ 0xff00) := by
  obtain ⟨size, settled⟩ := Image.settled_of_finalize run.wellFormed.sections done
  obtain ⟨strtab, -, closed⟩ := settled.closed
  obtain ⟨-, -, count, -⟩ := FileHeader.close_eq_ok_iff.mp closed
  refine ⟨count, fun i positive bound => ?_, ?_⟩
  · have referable := SectionRef.check_index_iff positive (Nat.lt_trans bound count)
    refine ⟨referable, fun name symbol undefined => ?_⟩
    rw [Image.addSymbol_at_iff, ← referable]
    exact and_iff_right undefined
  · constructor
    · intro all
      by_contra many
      have last := all 0xff00 (by omega) (by omega)
      exact absurd last (by decide)
    · intro few i positive bound
      exact (SectionRef.check_index_iff positive (by omega)).mpr (by omega)

theorem sample_indexes : sample.image.finalize.1 = .ok () ∧
    ∀ i, 1 ≤ i → i < sample.image.finalize.2.sections.size →
      (SectionRef.index (.ofNat i)).check = .ok () := by
  have done : sample.image.finalize.1 = .ok () := by decide +kernel
  have few : sample.image.finalize.2.sections.size ≤ 0xff00 := by decide +kernel
  exact ⟨done, (finalized_indexes sample (Prod.ext done rfl)).2.2.mpr few⟩

/-- So many sections that the last one has a reserved index. -/
def crowded : Run := adding ((List.range 0xfefe).map numbered)

theorem finalize_crowded :
    crowded.image.finalize.1 = .ok () ∧ crowded.image.sections.size = 0xfefe + 3 := by
  have addable := addable_numbered (show 0xfefe ≤ 100000 by decide)
  have count : ((List.range 0xfefe).map numbered).length = 0xfefe := by
    rw [List.length_map, List.length_range]
  have finalized := finalize_adding_iff addable
  have size := size_adding addable
  rw [count] at finalized size
  exact ⟨finalized.mpr (by decide), size⟩

theorem crowded_reserved : ¬ ∀ (run : Run) (next : Image), run.image.finalize = (.ok (), next) →
    ∀ i, 1 ≤ i → i < next.sections.size → (SectionRef.index (.ofNat i)).check = .ok () := by
  intro claimed
  obtain ⟨done, size⟩ := finalize_crowded
  rcases outcome : crowded.image.finalize with ⟨answer, next⟩
  rw [outcome] at done
  obtain rfl : answer = .ok () := done
  have kept := (Image.alike_of_finalize outcome).sections.size
  have checked := claimed crowded next outcome 0xff00 (by decide) (by omega)
  exact absurd checked (by decide)

end Run

end Elf64
