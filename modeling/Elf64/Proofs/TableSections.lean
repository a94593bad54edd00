import Elf64.Proofs.Serialization
import Elf64.Proofs.Tables

/-! The two tables in the layout.

The headers of the two tables can be edited like any other, and finalizing restores them only in part:
it stores neither a type nor, for a section that does not occupy the file, a size. So both tables are
in the layout with their true sizes unless an edit has given one of them a type that keeps it out
(`Run.finalized_tables`). -/

set_option autoImplicit false

namespace Elf64

/-- Editing the section of this name leaves its type as it is. -/
def Edit.KeepsType (name : String) (image : Image) : Edit → Prop
  | editSection target f =>
    target = name → ∀ header, image.sections.find? target = some header → (f header).type = header.type
  | _ => True

namespace Image

variable {image next : Image} {edit : Edit} {answer : Except Error Answer} {size i : Nat} {name : String}
  {header : SectionHeader}

theorem type_step {type : SectionType} (wellFormed : image.WellFormed)
    (here : image.sections.nameOf? i = some name) (rule : edit.KeepsType name image)
    (step : image.Step edit answer next) (typed : image.sections.Satisfies i (·.type = type)) :
    next.sections.Satisfies i (·.type = type) := by
  refine satisfies_step (fun header => Iff.rfl) wellFormed here step ?_ typed
  rintro f rfl header found
  have there := (wellFormed.sections.indexed name i).mpr here
  rw [rule rfl header found]
  exact typed header ((SectionTable.find?_of_indexOf? there).symm.trans found)

theorem section_of_name (named : image.sections.nameOf? i = some name)
    (here : image.sections.get? i = some header) :
    ∃ entry ∈ image.sections.added.toList, entry.name = name ∧ entry.header = header := by
  cases i with
  | zero => contradiction
  | succ i =>
    obtain ⟨entry, found, rfl⟩ := Option.map_eq_some_iff.mp named
    obtain ⟨_, again, rfl⟩ := Option.map_eq_some_iff.mp here
    obtain rfl := Option.some.inj (found.symm.trans again)
    exact ⟨entry, Array.mem_toList_iff.mpr (Array.mem_of_getElem? found), rfl, rfl⟩

-- A section that occupies the file is as large as its contents and lies in the file.
theorem Settled.laid_out (settled : image.Settled size) (strings : image.strings.WellFormed)
    (named : image.sections.nameOf? i = some name) (here : image.sections.get? i = some header)
    (occupies : header.occupiesFile) :
    ∃ entry : Section, entry.name = name ∧ header.size.toNat = image.contentsSize entry ∧
      header.offset.toNat + header.size.toNat ≤ size := by
  obtain ⟨entry, member, named, rfl⟩ := section_of_name named here
  refine ⟨entry, named, ?_, ?_⟩
  · rw [contentsSize_eq strings]
    exact settled.size_eq strings member occupies
  · rw [← settled.length_bytes strings]
    exact inside_of_slice? (settled.slice_contents strings member occupies)

end Image

namespace Run

theorem symtab_type (run : Run) (follows : run.Follows (Edit.KeepsType symtabName)) :
    run.image.sections.Satisfies 1 (·.type = .symTab) := by
  refine run.invariant ?_ (fun wellFormed => Image.type_step wellFormed wellFormed.symtab) follows
  intro config header here
  obtain rfl := Option.some.inj here
  rfl

theorem strtab_type (run : Run) (follows : run.Follows (Edit.KeepsType strtabName)) :
    run.image.sections.Satisfies 2 (·.type = .strTab) := by
  refine run.invariant ?_ (fun wellFormed => Image.type_step wellFormed wellFormed.strtab) follows
  intro config header here
  obtain rfl := Option.some.inj here
  rfl

/-- Finalizing leaves the two tables where the file header and the names say. They have their types
unless these were edited, and each has its true size and lies in the file unless its type keeps it
out. -/
theorem finalized_tables (run : Run) {next : Image} (done : run.image.finalize = (.ok (), next)) :
    ∃ size symtab strtab, next.finalSize = some size ∧
      next.sections.find? symtabName = some symtab ∧ next.sections.find? strtabName = some strtab ∧
      next.sections.get? next.header.nameTableIndex.toNat = some strtab ∧
      (run.Follows (Edit.KeepsType symtabName) → symtab.type = .symTab) ∧
      (run.Follows (Edit.KeepsType strtabName) → strtab.type = .strTab) ∧
      (symtab.occupiesFile → symtab.size.toNat = 24 * next.symbols.size ∧
        symtab.offset.toNat + symtab.size.toNat ≤ size) ∧
      (strtab.occupiesFile → strtab.size.toNat = next.strings.size ∧
        strtab.offset.toNat + strtab.size.toNat ≤ size) := by
  obtain ⟨size, settled⟩ := Image.settled_of_finalize run.wellFormed.sections done
  have last : (run.extend .finalize).image = next := by rw [image_finalize, done]
  have wellFormed := last ▸ (run.extend .finalize).wellFormed
  have atSymtab := (wellFormed.sections.indexed symtabName 1).mpr wellFormed.symtab
  have atStrtab := (wellFormed.sections.indexed strtabName 2).mpr wellFormed.strtab
  obtain ⟨symtab, symtabHere⟩ := SectionTable.get?_of_nameOf? wellFormed.symtab
  obtain ⟨strtab, strtabHere⟩ := SectionTable.get?_of_nameOf? wellFormed.strtab
  refine ⟨size, symtab, strtab, settled.finalSize, ?_, ?_, ?_, ?_, ?_, ?_, ?_⟩
  · rw [SectionTable.find?_of_indexOf? atSymtab, symtabHere]
  · rw [SectionTable.find?_of_indexOf? atStrtab, strtabHere]
  · obtain ⟨-, found⟩ := settled.counts
    rw [← Option.some.inj (atStrtab.symm.trans found), strtabHere]
  · intro follows
    have typed := (run.extend .finalize).symtab_type ((run.follows_extend _).mpr ⟨follows, trivial⟩)
    exact typed symtab (last ▸ symtabHere)
  · intro follows
    have typed := (run.extend .finalize).strtab_type ((run.follows_extend _).mpr ⟨follows, trivial⟩)
    exact typed strtab (last ▸ strtabHere)
  · intro occupies
    obtain ⟨entry, named, length, inside⟩ :=
      settled.laid_out wellFormed.strings wellFormed.symtab symtabHere occupies
    refine ⟨?_, inside⟩
    rw [length, Image.contentsSize, if_pos named, SymbolTable.encodedSize, Symbol.recordSize, Nat.mul_comm]
  · intro occupies
    obtain ⟨entry, named, length, inside⟩ :=
      settled.laid_out wellFormed.strings wellFormed.strtab strtabHere occupies
    have other : entry.name ≠ symtabName := named ▸ by decide
    refine ⟨?_, inside⟩
    rw [length, Image.contentsSize, if_neg other, if_pos named]

theorem sample_tables : sample.image.finalize = (.ok (), sample.image) ∧
    sample.Follows (Edit.KeepsType symtabName) ∧ ∃ symtab,
      sample.image.sections.find? symtabName = some symtab ∧ symtab.type = .symTab ∧
      symtab.size.toNat = 48 ∧ symtab.offset.toNat + 48 ≤ 482 := by
  have again := (sample.settled finalSize_sample).finalize
  have follows : sample.Follows (Edit.KeepsType symtabName) := by
    simp [Follows, sample, Edit.FollowAll, Edit.KeepsType, symtabName]
  obtain ⟨size, symtab, strtab, finalSize, found, -, -, typed, -, inside, -⟩ := finalized_tables sample again
  obtain rfl := Option.some.inj (finalSize_sample.symm.trans finalSize)
  have type := typed follows
  obtain ⟨length, bound⟩ := inside (by rw [SectionHeader.occupiesFile, type]; rfl)
  rw [show 24 * sample.image.symbols.size = 48 by decide +kernel] at length
  rw [length] at bound
  exact ⟨again, follows, symtab, found, type, length, bound⟩

/-- An edit makes the symbol table a section without bytes in the file. -/
def untyped : Run where
  edits := [.editSection symtabName (SectionHeader.Patch.apply { type := some .noBits })]

/-- That both tables always have their types and sizes is not so. -/
theorem untyped_symtab : ¬ ∀ (run : Run) (next : Image), run.image.finalize = (.ok (), next) →
    ∃ size symtab strtab, next.finalSize = some size ∧
      next.sections.find? symtabName = some symtab ∧
      next.sections.get? next.header.nameTableIndex.toNat = some strtab ∧
      (symtab.type = .symTab ∧ symtab.size.toNat = 24 * next.symbols.size ∧
        symtab.offset.toNat + symtab.size.toNat ≤ size) ∧
      (strtab.type = .strTab ∧ strtab.size.toNat = next.strings.size ∧
        strtab.offset.toNat + strtab.size.toNat ≤ size) := by
  intro claimed
  have done : untyped.image.finalize.1 = .ok () := by decide +kernel
  obtain ⟨size, symtab, strtab, -, found, -, ⟨type, -⟩, -⟩ :=
    claimed untyped untyped.image.finalize.2 (Prod.ext done rfl)
  have edited : (untyped.image.finalize.2.sections.find? symtabName).map SectionHeader.type =
      some .noBits := by decide +kernel
  rw [found, Option.map_some, type] at edited
  contradiction

end Run

end Elf64
