import Elf64.Proofs.Retry
import Elf64.Proofs.Run
import Elf64.Proofs.Twins

/-! What finalizing changes.

Finalizing stores the layout in headers and changes nothing else (`Run.finalize_frame`), whether it succeeds
or stops at one of its stages. The file header gets its counts only if it succeeds. -/

set_option autoImplicit false

namespace Elf64

/-! ## The file header -/

namespace FileHeader

variable {header old new : FileHeader}

/-- The fields before the offset of the section table. -/
def front (header : FileHeader) : Record := header.record.take 6

/-- The fields between that offset and the count of the sections. -/
def middle (header : FileHeader) : Record := (header.record.drop 7).take 5

/-- No field differs that finalizing does not store, nor do the bytes of the other fields. -/
structure Frame (old new : FileHeader) : Prop where
  ident : new.ident = old.ident
  fileType : new.fileType = old.fileType
  machine : new.machine = old.machine
  version : new.version = old.version
  entry : new.entry = old.entry
  flags : new.flags = old.flags
  /-- With the offset of the program headers. -/
  front : ∀ order, (new.encode order).take 40 = (old.encode order).take 40
  /-- With the size and the count of the program headers. -/
  middle : ∀ order, ((new.encode order).drop 48).take 12 = ((old.encode order).drop 48).take 12

theorem encode_pieces (order : ByteOrder) (header : FileHeader) : header.encode order =
    header.front.encode order ++ (order.write 8 header.sectionTableOffset.toNat ++
      (header.middle.encode order ++ (order.write 2 header.sectionCount.toNat ++
        order.write 2 header.nameTableIndex.toNat))) := by
  simp [encode, front, middle, record]

theorem length_front (order : ByteOrder) (header : FileHeader) : (header.front.encode order).length = 40 := by
  simp [front, record, ident, magic]

theorem length_middle (order : ByteOrder) (header : FileHeader) :
    (header.middle.encode order).length = 12 := by
  simp [middle, record]

theorem take_encode (order : ByteOrder) (header : FileHeader) :
    (header.encode order).take 40 = header.front.encode order := by
  rw [encode_pieces]
  exact List.take_left' (header.length_front order)

theorem take_drop_encode (order : ByteOrder) (header : FileHeader) :
    ((header.encode order).drop 48).take 12 = header.middle.encode order := by
  have length : (header.front.encode order ++ order.write 8 header.sectionTableOffset.toNat).length = 48 := by
    rw [List.length_append, length_front, ByteOrder.length_write]
  rw [encode_pieces, ← List.append_assoc, List.drop_left' length]
  exact List.take_left' (header.length_middle order)

theorem frame_of_outline (same : new.outline = old.outline) : old.Frame new := by
  obtain ⟨fileType, machine, version, entry, flags, osAbi, abiVersion⟩ := outline_eq_iff.mp same
  -- Neither of the two looks at a field that finalizing stores.
  have front : new.outline.front = old.outline.front := congrArg FileHeader.front same
  have middle : new.outline.middle = old.outline.middle := congrArg FileHeader.middle same
  exact {
    ident := by rw [ident, ident, osAbi, abiVersion]
    fileType
    machine
    version
    entry
    flags
    front := fun order => by
      rw [take_encode, take_encode]
      exact congrArg (Record.encode order) front
    middle := fun order => by
      rw [take_drop_encode, take_drop_encode]
      exact congrArg (Record.encode order) middle }

end FileHeader

/-! ## The image -/

/-- What finalizing may have changed in the header at an index of a table. -/
structure SectionTable.HeaderFrame (table : SectionTable) (i : Nat) (old new : SectionHeader) : Prop where
  name : new.name = old.name
  type : new.type = old.type
  flags : new.flags = old.flags
  addr : new.addr = old.addr
  addralign : new.addralign = old.addralign
  entsize : new.entsize = old.entsize
  size : new.size ≠ old.size → old.occupiesFile
  link : new.link ≠ old.link → i ∈ table.links.map Prod.fst
  info : new.info ≠ old.info → table.indexOf? symtabName = some i

theorem SectionTable.headerFrame_of_given {table : SectionTable} {i : Nat} {old new : SectionHeader}
    (same : table.given i new = table.given i old) : table.HeaderFrame i old new := by
  obtain ⟨outline, size, link, info⟩ := given_eq_iff.mp same
  obtain ⟨name, type, flags, addr, addralign, entsize⟩ := SectionHeader.outline_eq_iff.mp outline
  have occupies := SectionHeader.occupiesFile_of_outline outline
  exact {
    name
    type
    flags
    addr
    addralign
    entsize
    size := fun changed => by
      rw [← occupies]
      exact Decidable.not_not.mp fun vacant => changed (size vacant)
    link := fun changed => Decidable.not_not.mp fun unlinked => changed (link unlinked)
    info := fun changed => Decidable.not_not.mp fun other => changed (info other) }

/-- What finalizing an image may have changed when it has answered, and what it answers after a failure. -/
structure Image.Frame (image : Image) (answer : Except Error Unit) (next : Image) : Prop where
  strings : next.strings = image.strings
  symbols : next.symbols = image.symbols
  /-- The names of the sections and the contents that they have been given. -/
  listing : next.sections.listing = image.sections.listing
  index : next.sections.index = image.sections.index
  links : next.sections.links = image.sections.links
  null : next.sections.get? 0 = image.sections.get? 0
  headers : ∀ i old, image.sections.get? i = some old → ∃ new,
    next.sections.get? i = some new ∧ image.sections.HeaderFrame i old new
  fileHeader : image.header.Frame next.header
  failed : ∀ e, answer = .error e →
    next.header.sectionCount = image.header.sectionCount ∧
      next.header.nameTableIndex = image.header.nameTableIndex ∧
      next.isFinalized = false ∧ next.finalize = (.error e, next)

/-- Finalizing changes the layout and nothing else, whether it succeeds or not, and a failure is repeated. -/
theorem Run.finalize_frame (run : Run) : run.image.Frame run.image.finalize.1 run.image.finalize.2 := by
  have twins := run.image.finalize_twins
  exact {
    strings := twins.strings
    symbols := twins.symbols
    listing := twins.sections.alike.listing
    index := twins.sections.alike.index
    links := twins.sections.alike.links
    null := rfl
    headers := fun i old there => by
      have given := twins.sections.given i
      rw [there] at given
      obtain ⟨new, here, same⟩ := Option.map_eq_some_iff.mp given
      exact ⟨new, here, SectionTable.headerFrame_of_given same⟩
    fileHeader := FileHeader.frame_of_outline twins.header
    failed := fun e answered => by
      have outcome : run.image.finalize = (.error e, run.image.finalize.2) := Prod.ext answered rfl
      obtain ⟨count, index⟩ := Image.counts_of_failed outcome
      have unmarked := Image.finalSize_of_failed outcome
      refine ⟨count, index, ?_, Image.finalize_again_of_failed run.wellFormed.sections outcome⟩
      rw [Image.isFinalized, unmarked]
      rfl }

/-- The first section has been placed when the second one turns out to lie too far behind. -/
def Run.steep : Run where
  edits := [
    .addSection ".text" { type := .progBits } [0x90, 0xc3],
    .addSection ".data" { type := .progBits, addralign := 0x8000000000000000 } [1]]

example : (Run.steep.image.finalize.1.isOk, Run.steep.image.finalize.2.sections.headers.map
    SectionHeader.size) = (false, [0, 24, 29, 2, 1]) := by
  decide +kernel

end Elf64
