import Elf64.Proofs.File
import Elf64.Proofs.Run

/-! What holds of an image that counts as finalized, after any run.

Its headers are up to date, so that finalizing it again does nothing, and the file that is written for
it is the one that they describe. -/

set_option autoImplicit false

namespace Elf64.Run

/-- The bytes that the file is to have for the section of this name, which was added with the bytes
`given`. -/
def contents (run : Run) (name : String) (given : Bytes) : Bytes :=
  if name = symtabName then run.image.symbols.encode .little
  else if name = strtabName then run.image.strings.encode
  else given

/-- The bytes are a file that the headers of the image describe. -/
structure Agrees (run : Run) (bytes : Bytes) : Prop where
  size : run.image.finalSize = some bytes.length
  header : slice? bytes 0 64 = some (run.image.header.encode .little)
  table : slice? bytes 64 (64 * run.image.sections.size) = some (run.image.sections.encode .little)
  contents : ∀ i header, run.image.sections.get? (i + 1) = some header → header.occupiesFile →
    ∃ name given, run.sections[i]? = some (name, given) ∧
      slice? bytes header.offset.toNat header.size.toNat = some (run.contents name given)
  /-- Behind the section table, what lies in no section is zero. -/
  padding : ∀ position byte, bytes[position]? = some byte →
    64 + 64 * run.image.sections.size ≤ position →
    (∀ i header, run.image.sections.get? i = some header → header.occupiesFile →
      ¬ (header.offset.toNat ≤ position ∧ position < header.offset.toNat + header.size.toNat)) →
    byte = 0

variable {run : Run} {size : Nat} {bytes : Bytes}

theorem section_at (run : Run) {i : Nat} {header : SectionHeader}
    (here : run.image.sections.get? (i + 1) = some header) :
    ∃ entry ∈ run.image.sections.added.toList, entry.header = header ∧
      run.sections[i]? = some (entry.name, entry.contents) := by
  obtain ⟨entry, found, rfl⟩ := Option.map_eq_some_iff.mp here
  rw [← Array.getElem?_toList] at found
  refine ⟨entry, List.mem_of_getElem? found, rfl, ?_⟩
  rw [← run.listing, SectionTable.listing, List.getElem?_map, found]
  rfl

theorem header_at (run : Run) {entry : Section} (member : entry ∈ run.image.sections.added.toList) :
    ∃ i, run.image.sections.get? i = some entry.header := by
  obtain ⟨i, found⟩ := List.getElem?_of_mem member
  rw [Array.getElem?_toList] at found
  exact ⟨i + 1, by simp [SectionTable.get?, found]⟩

theorem settled (run : Run) (finalSize : run.image.finalSize = some size) : run.image.Settled size :=
  run.wellFormed.settled size finalSize

theorem start_eq (run : Run) : run.image.contentsStart = 64 + 64 * run.image.sections.size :=
  run.image.contentsStart_eq

/-- The bytes that a settled image describes are a file that agrees with it. -/
theorem agrees_bytes (finalSize : run.image.finalSize = some size) : run.Agrees run.image.bytes where
  size := by rw [(run.settled finalSize).length_bytes run.wellFormed.strings, finalSize]
  header := run.image.slice_header
  table := by
    rw [Nat.mul_comm]
    exact run.image.slice_table
  contents := by
    intro i header here occupies
    obtain ⟨entry, member, rfl, listed⟩ := run.section_at here
    refine ⟨entry.name, entry.contents, listed, ?_⟩
    exact (run.settled finalSize).slice_contents run.wellFormed.strings member occupies
  padding := by
    intro position byte here behind outside
    refine (run.settled finalSize).eq_zero run.wellFormed.strings here (by rwa [run.start_eq]) ?_
    intro entry member occupies
    obtain ⟨i, found⟩ := run.header_at member
    exact outside i entry.header found occupies

/-- Whatever the machine can reserve memory for, a file that is written agrees with the headers, and a
finalized image fails to be written exactly if memory for its file cannot be reserved. -/
theorem serialize_agrees (run : Run) (reserves : Nat → Bool) :
    (∀ bytes, run.image.serialize reserves = .ok bytes → run.Agrees bytes) ∧
    ∀ size, run.image.finalSize = some size →
      (reserves size = true → ∃ bytes, run.image.serialize reserves = .ok bytes) ∧
      (reserves size = false → run.image.serialize reserves = .error (.tooLarge size)) := by
  constructor
  · intro bytes serialized
    obtain ⟨size, finalSize, -, rfl⟩ := (Image.serialize_eq_ok_iff run.wellFormed).mp serialized
    exact agrees_bytes finalSize
  · intro size finalSize
    rw [Image.serialize_eq run.wellFormed finalSize reserves]
    exact ⟨fun reserved => ⟨run.image.bytes, if_pos reserved⟩, fun refused => by simp [refused]⟩

/-- A section with bytes in the file, one without, a symbol, and some of the other changes. -/
def sample : Run where
  edits := [
    .addSection ".text" { type := .progBits, addralign := 16 } [0x90, 0xc3],
    .addSection ".bss" { type := .noBits, addralign := 32 } [],
    .addSymbol "main" { info := 0x12, definedIn := .index 3 },
    .editHeader fun header => { header with entry := 0x401000 },
    .editSection ".text" fun header => { header with addr := 0x401000 },
    .link ".bss" ".text",
    .finalize]

theorem finalSize_sample : sample.image.finalSize = some 482 := by decide +kernel

theorem serialize_sample : sample.image.serialize (· ≤ 482) = .ok sample.image.bytes :=
  (Image.serialize_eq_ok_iff sample.wellFormed).mpr ⟨482, finalSize_sample, rfl, rfl⟩

/-- One byte of memory decides whether the file can be written. -/
theorem sample_agrees :
    sample.image.serialize (· ≤ 482) = .ok sample.image.bytes ∧ sample.Agrees sample.image.bytes ∧
      sample.image.serialize (· ≤ 481) = .error (.tooLarge 482) :=
  ⟨serialize_sample, (serialize_agrees sample _).1 sample.image.bytes serialize_sample,
    ((serialize_agrees sample _).2 482 finalSize_sample).2 rfl⟩

/-- Finalizing an image that counts as finalized does nothing, since its headers are up to date. -/
theorem finalize_again (run : Run) (finalized : run.image.isFinalized) :
    run.image.finalize = (.ok (), run.image) ∧
    run.image.header.sectionTableOffset = 64 ∧
    run.image.header.sectionCount.toNat = run.image.sections.size ∧
    run.image.sections.indexOf? strtabName = some run.image.header.nameTableIndex.toNat ∧
    (∃ header, run.image.sections.find? symtabName = some header ∧
      header.info.toNat = run.image.symbols.firstGlobal) ∧
    ∀ i header, run.image.sections.get? (i + 1) = some header → header.occupiesFile →
      ∃ name given, run.sections[i]? = some (name, given) ∧
        header.size.toNat = (run.contents name given).length := by
  obtain ⟨size, finalSize⟩ := Option.isSome_iff_exists.mp finalized
  have settled := run.settled finalSize
  obtain ⟨count, strtab⟩ := settled.counts
  refine ⟨settled.finalize, settled.tableOffset, count, strtab, ?_, ?_⟩
  · have found := (run.wellFormed.sections.indexed symtabName 1).mpr run.wellFormed.symtab
    obtain ⟨header, here⟩ := SectionTable.get?_of_nameOf? run.wellFormed.symtab
    refine ⟨header, ?_, settled.info found here⟩
    rw [SectionTable.find?, found]
    exact here
  · intro i header here occupies
    obtain ⟨entry, member, rfl, listed⟩ := run.section_at here
    exact ⟨entry.name, entry.contents, listed, settled.size_eq run.wellFormed.strings member occupies⟩

theorem sample_finalize_again : sample.image.isFinalized ∧
    sample.image.finalize = (.ok (), sample.image) :=
  have finalized := Option.isSome_of_eq_some finalSize_sample
  ⟨finalized, (finalize_again sample finalized).1⟩

end Elf64.Run
