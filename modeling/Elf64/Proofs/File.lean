import Elf64.Image.Serialize
import Elf64.Proofs.Slices
import Elf64.Proofs.Steps
import Elf64.Proofs.Writer

/-! The bytes of a file.

Finalizing predicts where every section goes, and writing has its own position and its own padding.
They agree because the position of the writer when it comes to a section is the cursor of the layout
there (`Placed`); the sections with the zeros between them then make up the file that was predicted. -/

set_option autoImplicit false

namespace Elf64

/-! ## Sections in their places -/

/-- What a header that placing leaves alone says about the section. -/
theorem SectionHeader.of_place_self {header : SectionHeader} {size cursor next : Nat}
    (fixed : header.place size cursor = (.ok next, header)) :
    if header.occupiesFile then
      cursor ≤ header.offset.toNat ∧ header.size.toNat = size ∧ next = header.offset.toNat + size
    else next = cursor := by
  obtain ⟨-, rest⟩ := place_eq_ok_iff.mp fixed
  dsimp only at rest
  split at rest
  · next occupies =>
    obtain ⟨bounded, rfl, same⟩ := rest
    have below : alignUp cursor header.addralign.toNat < 0x10000000000000000 :=
      Nat.lt_of_le_of_lt (Nat.le_add_right _ _) bounded
    have small : size < 0x10000000000000000 := Nat.lt_of_le_of_lt (Nat.le_add_left _ _) bounded
    have offset : header.offset.toNat = alignUp cursor header.addralign.toNat := by
      rw [same]
      exact UInt64.toNat_ofNat_of_lt' below
    have length : header.size.toNat = size := by
      rw [same]
      exact UInt64.toNat_ofNat_of_lt' small
    rw [if_pos occupies, offset, length]
    exact ⟨le_alignUp cursor _, rfl, rfl⟩
  · next vacant =>
    rw [if_neg vacant]
    exact rest.1

namespace Image

/-- The contents of sections that occupy the file, with zeros between them, from the position
`cursor` of the file on. -/
def body (contents : Section → Bytes) : Nat → List Section → Bytes
  | _, [] => []
  | cursor, entry :: rest =>
    if entry.header.occupiesFile then
      let gap := entry.header.offset.toNat - cursor
      let bytes := contents entry
      List.replicate gap 0 ++ (bytes ++ body contents (cursor + gap + bytes.length) rest)
    else
      body contents cursor rest

/-- The bytes of the file: its header, the section table, and the contents of the sections. -/
def bytes (image : Image) : Bytes :=
  image.header.encode .little ++ (image.sections.encode .little ++
    body image.contents image.contentsStart image.sections.added.toList)

variable {contents : Section → Bytes} {cursor last : Nat} {entry : Section} {entries rest : List Section}

theorem body_of_vacant (vacant : ¬ entry.header.occupiesFile) :
    body contents cursor (entry :: rest) = body contents cursor rest := by
  rw [body, if_neg vacant]

theorem body_of_occupied (occupies : entry.header.occupiesFile)
    (behind : cursor ≤ entry.header.offset.toNat) :
    body contents cursor (entry :: rest) = List.replicate (entry.header.offset.toNat - cursor) 0 ++
      (contents entry ++
        body contents (entry.header.offset.toNat + (contents entry).length) rest) := by
  rw [body, if_pos occupies]
  dsimp only
  rw [Nat.add_sub_cancel' behind]

-- The contents end where the layout does.
theorem length_body (placed : Placed (fun entry => (contents entry).length) last cursor entries) :
    cursor + (body contents cursor entries).length = last := by
  induction placed with
  | nil => rfl
  | @cons cursor next entry rest fixed behind ih =>
    have place := SectionHeader.of_place_self fixed
    by_cases occupies : entry.header.occupiesFile
    · rw [if_pos occupies] at place
      obtain ⟨before, size, rfl⟩ := place
      rw [body_of_occupied occupies before, ← ih]
      simp only [List.length_append, List.length_replicate]
      omega
    · rw [if_neg occupies] at place
      subst place
      rw [body_of_vacant occupies]
      exact ih

/-- Every section that occupies the file is where its header says. -/
theorem slice_body (placed : Placed (fun entry => (contents entry).length) last cursor entries)
    (member : entry ∈ entries) (occupies : entry.header.occupiesFile) :
    cursor ≤ entry.header.offset.toNat ∧ entry.header.size.toNat = (contents entry).length ∧
      slice? (body contents cursor entries) (entry.header.offset.toNat - cursor)
        (contents entry).length = some (contents entry) := by
  induction placed with
  | nil => contradiction
  | @cons cursor next first rest fixed behind ih =>
    have place := SectionHeader.of_place_self fixed
    by_cases present : first.header.occupiesFile
    · rw [if_pos present] at place
      obtain ⟨before, size, rfl⟩ := place
      rw [body_of_occupied present before]
      rcases List.mem_cons.mp member with rfl | later
      · exact ⟨before, size, slice?_eq_some_iff.mpr ⟨_, _, rfl, List.length_replicate, rfl⟩⟩
      · -- What is found in the rest lies behind the gap and the first section.
        obtain ⟨forward, size', found⟩ := ih later
        refine ⟨by omega, size', ?_⟩
        obtain ⟨left, right, split, length, -⟩ := slice?_eq_some_iff.mp found
        rw [slice?_eq_some_iff]
        refine ⟨List.replicate (first.header.offset.toNat - cursor) 0 ++ (contents first ++ left), right, ?_, ?_, rfl⟩
        · rw [split]
          simp only [List.append_assoc]
        · simp only [List.length_append, List.length_replicate, length]
          omega
    · rw [if_neg present] at place
      subst place
      rw [body_of_vacant present]
      rcases List.mem_cons.mp member with rfl | later
      · contradiction
      · exact ih later

-- What lies in no section is zero.
theorem body_eq_zero (placed : Placed (fun entry => (contents entry).length) last cursor entries)
    {position : Nat} {byte : UInt8} (here : (body contents cursor entries)[position]? = some byte)
    (outside : ∀ entry ∈ entries, entry.header.occupiesFile →
      ¬ (entry.header.offset.toNat ≤ cursor + position ∧
        cursor + position < entry.header.offset.toNat + entry.header.size.toNat)) : byte = 0 := by
  induction placed generalizing position with
  | nil => simp [body] at here
  | @cons cursor next first rest fixed behind ih =>
    have place := SectionHeader.of_place_self fixed
    have later := fun entry member => outside entry (List.mem_cons_of_mem _ member)
    by_cases present : first.header.occupiesFile
    · rw [if_pos present] at place
      obtain ⟨before, size, rfl⟩ := place
      rw [body_of_occupied present before] at here
      have apart := outside first List.mem_cons_self present
      rw [size] at apart
      -- Either the position is in the gap before the section, or it is behind the section.
      by_cases gap : position < first.header.offset.toNat - cursor
      · rw [List.getElem?_append_left (by simpa using gap)] at here
        exact List.eq_of_mem_replicate (List.mem_of_getElem? here)
      · rw [List.getElem?_append_right (by simpa using gap), List.length_replicate,
          List.getElem?_append_right (by omega)] at here
        refine ih here ?_
        have same : first.header.offset.toNat + (contents first).length +
            (position - (first.header.offset.toNat - cursor) - (contents first).length) =
              cursor + position := by omega
        rw [same]
        exact later
    · rw [if_neg present] at place
      subst place
      rw [body_of_vacant present] at here
      exact ih here later

/-! ## Writing -/

open Output (Writer)

variable {image : Image} {symtab strtab index size : Nat} {writer : Writer} {bytes : Bytes}

-- Sizes are predicted as they turn out.
theorem contentsSize_eq (strings : image.strings.WellFormed) :
    image.contentsSize = fun entry => (image.contents entry).length := by
  funext entry
  simp only [contentsSize, Image.contents]
  split
  · rw [SymbolTable.length_encode]
  · split
    · exact strings.size
    · rfl

theorem contentRecords_fit (image : Image) (symtab strtab index : Nat) (entry : Section) :
    ∀ record ∈ image.contentRecords symtab strtab index entry, record.Fits := by
  unfold contentRecords
  split
  · exact image.symbols.records_fit
  · split
    · exact image.strings.records_fit
    · simp [Record.Fits, Field.Fits]

-- The two tables are told by their indexes here, and by their names in `contents`.
theorem contentRecords_encode (wellFormed : image.sections.WellFormed)
    (atSymtab : image.sections.indexOf? symtabName = some symtab)
    (atStrtab : image.sections.indexOf? strtabName = some strtab)
    (named : image.sections.nameOf? index = some entry.name) :
    (image.contentRecords symtab strtab index entry).flatMap (Record.encode .little) =
      image.contents entry := by
  simp only [contentRecords, Image.contents, wellFormed.index_eq_iff atSymtab named,
    wellFormed.index_eq_iff atStrtab named]
  split
  · exact image.symbols.encode_records .little
  · split
    · exact image.strings.encode_records .little
    · simp

theorem writeSections_leaves (wellFormed : image.sections.WellFormed)
    (atSymtab : image.sections.indexOf? symtabName = some symtab)
    (atStrtab : image.sections.indexOf? strtabName = some strtab)
    (named : ∀ i entry, entries[i]? = some entry →
      image.sections.nameOf? (index + i) = some entry.name)
    (holds : writer.Holds .little bytes) :
    Writer.Leaves (image.writeSections symtab strtab index entries writer) .little
      (bytes ++ body image.contents bytes.length entries) := by
  induction entries generalizing index writer bytes with
  | nil => simpa [writeSections, body] using holds.leaves
  | cons entry rest ih =>
    -- The writer's position is the length of what it holds, which is the cursor of `body`.
    have here : image.sections.nameOf? index = some entry.name := named 0 entry rfl
    have later : ∀ i other, rest[i]? = some other →
        image.sections.nameOf? (index + 1 + i) = some other.name := by
      intro i other found
      rw [Nat.add_right_comm]
      exact named (i + 1) other found
    rw [writeSections, body]
    split
    · dsimp only
      refine (holds.padTo _).andThen fun padded holds => ?_
      refine (holds.writeRecords (image.contentRecords_fit symtab strtab index entry)).andThen
        fun written holds => ?_
      rw [contentRecords_encode wellFormed atSymtab atStrtab here] at holds
      have done := ih later holds
      simp only [List.length_append, List.length_replicate, List.append_assoc, ← Nat.add_assoc] at done
      exact done
    · exact ih later holds

theorem nameOf?_added (image : Image) (i : Nat) (entry : Section)
    (found : image.sections.added.toList[i]? = some entry) :
    image.sections.nameOf? (1 + i) = some entry.name := by
  rw [Nat.add_comm]
  rw [Array.getElem?_toList] at found
  simp [SectionTable.nameOf?, found]

/-- Writing an image to a sink that takes everything comes to the bytes that its headers describe. -/
theorem write_leaves (wellFormed : image.WellFormed) (holds : writer.Holds .little []) :
    Writer.Leaves (image.write writer) .little image.bytes := by
  have atSymtab := (wellFormed.sections.indexed symtabName 1).mpr wellFormed.symtab
  have atStrtab := (wellFormed.sections.indexed strtabName 2).mpr wellFormed.strtab
  rw [write, SectionTable.require_eq_ok_iff.mpr atSymtab, Outcome.andThen_ok,
    SectionTable.require_eq_ok_iff.mpr atStrtab, Outcome.andThen_ok]
  refine (holds.writeRecord image.header.record_fits).andThen fun _ holds => ?_
  refine (holds.writeRecords image.sections.records_fit).andThen fun _ holds => ?_
  rw [image.sections.encode_records, List.nil_append] at holds
  have written := writeSections_leaves wellFormed.sections atSymtab atStrtab image.nameOf?_added holds
  have start : (image.header.encode .little ++ image.sections.encode .little).length =
      image.contentsStart := by simp [contentsStart]
  rw [List.append_assoc, ← FileHeader.encode, start] at written
  exact written

/-- A finalized image can be written unless memory for its file cannot be reserved. -/
theorem serialize_eq (wellFormed : image.WellFormed) (finalSize : image.finalSize = some size)
    (reserves : Nat → Bool) : image.serialize reserves =
      if reserves size then .ok image.bytes else .error (.tooLarge size) := by
  obtain ⟨writer, written, holds⟩ := write_leaves wellFormed (Writer.holds_start .little)
  simp only [serialize, finalSize, written]
  split
  · exact congrArg Except.ok holds.stored
  · rfl

theorem serialize_eq_ok_iff (wellFormed : image.WellFormed) {reserves : Nat → Bool} :
    image.serialize reserves = .ok bytes ↔
      ∃ size, image.finalSize = some size ∧ reserves size ∧ bytes = image.bytes := by
  constructor
  · intro serialized
    cases finalSize : image.finalSize with
    | none => simp [serialize, finalSize] at serialized
    | some size =>
      -- The only other answer is that there is no memory for the file.
      rw [serialize_eq wellFormed finalSize reserves] at serialized
      split at serialized
      · next reserved => exact ⟨size, rfl, reserved, (Except.ok.inj serialized).symm⟩
      · contradiction
  · rintro ⟨size, finalSize, reserved, rfl⟩
    rw [serialize_eq wellFormed finalSize reserves, if_pos reserved]

/-! ## The file as a whole -/

variable {i : Nat} {header : SectionHeader} {position : Nat} {byte : UInt8}

theorem Settled.placed_contents (settled : image.Settled size) (strings : image.strings.WellFormed) :
    Placed (fun entry => (image.contents entry).length) size image.contentsStart
      image.sections.added.toList := by
  rw [← contentsSize_eq strings]
  exact settled.placed

theorem Settled.size_eq (settled : image.Settled size) (strings : image.strings.WellFormed)
    (member : entry ∈ image.sections.added.toList) (occupies : entry.header.occupiesFile) :
    entry.header.size.toNat = (image.contents entry).length :=
  (slice_body (settled.placed_contents strings) member occupies).2.1

theorem Settled.length_bytes (settled : image.Settled size) (strings : image.strings.WellFormed) :
    image.bytes.length = size := by
  have length := length_body (settled.placed_contents strings)
  simp only [bytes, List.length_append, FileHeader.length_encode, SectionTable.length_encode]
  rw [← length, contentsStart, Nat.add_assoc]

theorem contentsStart_eq (image : Image) : image.contentsStart = 64 + 64 * image.sections.size := by
  simp only [contentsStart, SectionTable.encodedSize, FileHeader.recordSize, SectionHeader.recordSize,
    Nat.mul_comm]

theorem slice_header (image : Image) :
    slice? image.bytes 0 FileHeader.recordSize = some (image.header.encode .little) :=
  slice?_eq_some_iff.mpr ⟨[], _, rfl, rfl, image.header.length_encode .little⟩

theorem slice_table (image : Image) : slice? image.bytes FileHeader.recordSize image.sections.encodedSize =
    some (image.sections.encode .little) :=
  slice?_eq_some_iff.mpr ⟨_, _, rfl, image.header.length_encode .little, image.sections.length_encode .little⟩

theorem bytes_eq (image : Image) :
    ∃ front : Bytes, front.length = image.contentsStart ∧
      image.bytes = front ++ body image.contents image.contentsStart image.sections.added.toList := by
  refine ⟨image.header.encode .little ++ image.sections.encode .little, ?_, ?_⟩
  · simp [contentsStart]
  · simp [bytes]

/-- A section that occupies the file is in it, where its header says and as large as it says. -/
theorem Settled.slice_contents (settled : image.Settled size) (strings : image.strings.WellFormed)
    (member : entry ∈ image.sections.added.toList) (occupies : entry.header.occupiesFile) :
    slice? image.bytes entry.header.offset.toNat entry.header.size.toNat = some (image.contents entry) := by
  obtain ⟨behind, length, found⟩ := slice_body (settled.placed_contents strings) member occupies
  obtain ⟨front, start, split⟩ := image.bytes_eq
  have whole : slice? image.bytes image.contentsStart _ =
      some (body image.contents image.contentsStart image.sections.added.toList) :=
    slice?_eq_some_iff.mpr ⟨front, [], by rw [split, List.append_nil], start, rfl⟩
  have inside := slice?_trans whole found
  rwa [Nat.add_sub_cancel' behind, ← length] at inside

theorem Settled.eq_zero (settled : image.Settled size) (strings : image.strings.WellFormed)
    (here : image.bytes[position]? = some byte) (behind : image.contentsStart ≤ position)
    (outside : ∀ entry ∈ image.sections.added.toList, entry.header.occupiesFile →
      ¬ (entry.header.offset.toNat ≤ position ∧
        position < entry.header.offset.toNat + entry.header.size.toNat)) : byte = 0 := by
  obtain ⟨front, start, split⟩ := image.bytes_eq
  rw [split, List.getElem?_append_right (by rw [start]; exact behind), start] at here
  refine body_eq_zero (settled.placed_contents strings) here ?_
  rw [Nat.add_sub_cancel' behind]
  exact outside

end Image

end Elf64
