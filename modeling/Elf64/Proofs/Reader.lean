import Elf64.Proofs.Serialization
import Elf64.Proofs.Tables

/-! What a reader finds in a file.

A reader starts at fixed positions of the file header, which lead to the section table, and from there
to names and symbols. Nothing here looks at the image that the file was written for, except to say what
is found. -/

set_option autoImplicit false

namespace Elf64

/-! ## Reading -/

namespace Reader

/-- The bytes from a position up to the first zero, which has to be there. -/
def textAt? (bytes : Bytes) (start : Nat) : Option Bytes :=
  let rest := bytes.drop start
  if 0 ∈ rest then some (rest.takeWhile (· ≠ 0)) else none

/-- Where the section table starts. -/
def tableOffset (bytes : Bytes) : Nat := ByteOrder.little.readAt bytes 40 8

/-- How many headers the section table has. -/
def headerCount (bytes : Bytes) : Nat := ByteOrder.little.readAt bytes 60 2

/-- The index of the section that holds the names. -/
def nameTable (bytes : Bytes) : Nat := ByteOrder.little.readAt bytes 62 2

def headerAt? (bytes : Bytes) (i : Nat) : Option SectionHeader :=
  (slice? bytes (tableOffset bytes + 64 * i) 64).bind fun record =>
    (SectionHeader.take? .little record).map Prod.fst

/-- A symbol of the table that this header describes. -/
def symbolAt? (bytes : Bytes) (symtab : SectionHeader) (i : Nat) : Option Symbol :=
  (slice? bytes (symtab.offset.toNat + 24 * i) 24).bind fun record =>
    (Symbol.take? .little record).map Prod.fst

end Reader

open Reader

theorem utf8_injective : Function.Injective utf8 := by
  intro first second same
  exact String.toByteArray_inj.mp (ByteArray.ext (Array.toList_inj.mp same))

theorem getElem?_of_forall₂ {α β : Type} {related : α → β → Prop} {first : List α} {second : List β}
    (all : List.Forall₂ related first second) {i : Nat} {item : α} (here : first[i]? = some item) :
    ∃ other, second[i]? = some other ∧ related item other := by
  induction all generalizing i with
  | nil => simp at here
  | cons same rest ih =>
    cases i with
    | zero =>
      obtain rfl := Option.some.inj here
      exact ⟨_, rfl, same⟩
    | succ i => exact ih here

theorem takeWhile_text {text rest : Bytes} (closed : 0 ∉ text) :
    (text ++ 0 :: rest).takeWhile (· ≠ 0) = text := by
  induction text with
  | nil => simp
  | cons first text ih =>
    have apart : first ≠ 0 := fun zero => closed (zero ▸ List.mem_cons_self)
    have later := ih fun member => closed (List.mem_cons_of_mem _ member)
    simpa [apart] using later

/-- A text of a string table is found where the table is in the file. -/
theorem StringTable.WellFormed.textAt? {table : StringTable} (wellFormed : table.WellFormed)
    {bytes : Bytes} {start size offset : Nat} {text : String}
    (found : slice? bytes start size = some table.encode) (entry : (offset, text) ∈ table.entries) :
    Reader.textAt? bytes (start + offset) = some (utf8 text) ∧ offset + (utf8 text).length < size := by
  obtain ⟨closed, left, right, split, rfl⟩ := wellFormed.encode_at entry
  obtain ⟨before, after, rfl, rfl, length⟩ := slice?_eq_some_iff.mp found
  rw [split] at length
  constructor
  · have rest : (before ++ (table.encode ++ after)).drop (before.length + left.length) =
        utf8 text ++ 0 :: (right ++ after) := by
      rw [List.drop_length_add_append, split]
      simp
    rw [Reader.textAt?, rest, if_pos (List.mem_append_right _ List.mem_cons_self), takeWhile_text closed]
  · simp only [List.length_append, List.length_cons] at length
    omega

/-! ## The file header -/

namespace FileHeader

variable (header : FileHeader) (rest : Bytes)

theorem readAt_sectionTableOffset :
    ByteOrder.little.readAt (header.encode .little ++ rest) 40 8 = header.sectionTableOffset.toNat := by
  have ends : (Record.encode .little (header.record.take 6)).length = 40 := by simp [record, ident, magic]
  exact @Record.readAt_encode .little _ (header.record.drop 7) (.xword header.sectionTableOffset) _ _ rfl
    header.sectionTableOffset.toNat_lt ends rest

theorem readAt_sectionCount :
    ByteOrder.little.readAt (header.encode .little ++ rest) 60 2 = header.sectionCount.toNat := by
  have ends : (Record.encode .little (header.record.take 12)).length = 60 := by simp [record, ident, magic]
  exact @Record.readAt_encode .little _ (header.record.drop 13) (.half header.sectionCount) _ _ rfl
    header.sectionCount.toNat_lt ends rest

theorem readAt_nameTableIndex :
    ByteOrder.little.readAt (header.encode .little ++ rest) 62 2 = header.nameTableIndex.toNat := by
  have ends : (Record.encode .little (header.record.take 13)).length = 62 := by simp [record, ident, magic]
  exact @Record.readAt_encode .little _ (header.record.drop 14) (.half header.nameTableIndex) _ _ rfl
    header.nameTableIndex.toNat_lt ends rest

end FileHeader

namespace Image

variable {image : Image} {size i : Nat} {header : SectionHeader}

theorem Settled.tableOffset_bytes (settled : image.Settled size) : Reader.tableOffset image.bytes = 64 := by
  refine (image.header.readAt_sectionTableOffset _).trans ?_
  rw [settled.tableOffset]
  rfl

theorem Settled.headerCount_bytes (settled : image.Settled size) :
    headerCount image.bytes = image.sections.size :=
  (image.header.readAt_sectionCount _).trans settled.counts.1

theorem Settled.nameTable_bytes (settled : image.Settled size) :
    image.sections.indexOf? strtabName = some (nameTable image.bytes) := by
  rw [settled.counts.2]
  exact congrArg some (image.header.readAt_nameTableIndex _).symm

-- The header at an index is read back whole.
theorem Settled.headerAt?_bytes (settled : image.Settled size)
    (here : image.sections.get? i = some header) : headerAt? image.bytes i = some header := by
  have checked := SectionTable.type_check_of_validate settled.valid here
  rw [SectionTable.get?_eq] at here
  have inTable : slice? (image.sections.encode .little) (64 * i) 64 = some (header.encode .little) :=
    slice?_flatMap (SectionHeader.length_encode .little) here
  have inFile := slice?_trans image.slice_table inTable
  have decoded := SectionHeader.take?_encode .little checked []
  rw [List.append_nil] at decoded
  rw [headerAt?, settled.tableOffset_bytes]
  rw [show 64 + 64 * i = FileHeader.recordSize + 64 * i from rfl, inFile]
  simp [decoded]

theorem slice_null (image : Image) : slice? image.bytes 64 64 = some (List.replicate 64 0) := by
  have first : image.sections.headers[0]? = some .null := rfl
  have inTable := slice?_flatMap (SectionHeader.length_encode .little) first
  exact slice?_trans image.slice_table inTable

end Image

namespace Run

variable {run : Run} {size : Nat} {bytes : Bytes}

-- The string table is in the file if the type of its section does not keep it out.
theorem slice_strtab (finalSize : run.image.finalSize = some size)
    (occupied : run.image.sections.Occupied 2) : ∃ strtab, run.image.sections.get? 2 = some strtab ∧
      slice? run.image.bytes strtab.offset.toNat strtab.size.toNat = some run.image.strings.encode := by
  obtain ⟨strtab, here⟩ := SectionTable.get?_of_nameOf? run.wellFormed.strtab
  obtain ⟨name, given, listed, found⟩ := (agrees_bytes finalSize).contents 1 strtab here (occupied strtab here)
  obtain ⟨rfl, rfl⟩ := Prod.mk.inj (Option.some.inj (show some (strtabName, []) = _ from listed))
  exact ⟨strtab, here, found⟩

theorem slice_symtab (finalSize : run.image.finalSize = some size)
    (occupied : run.image.sections.Occupied 1) : ∃ symtab, run.image.sections.get? 1 = some symtab ∧
      slice? run.image.bytes symtab.offset.toNat symtab.size.toNat =
        some (run.image.symbols.encode .little) := by
  obtain ⟨symtab, here⟩ := SectionTable.get?_of_nameOf? run.wellFormed.symtab
  obtain ⟨name, given, listed, found⟩ := (agrees_bytes finalSize).contents 0 symtab here (occupied symtab here)
  obtain ⟨rfl, rfl⟩ := Prod.mk.inj (Option.some.inj (show some (symtabName, []) = _ from listed))
  exact ⟨symtab, here, found⟩

/-! ## Sections by name -/

/-- A reader finds the headers of all sections, and the names that the sections were added under. -/
structure FindsSections (run : Run) (bytes : Bytes) : Prop where
  count : headerCount bytes = run.sections.length + 1
  headers : ∀ i < headerCount bytes, ∃ header,
    run.image.sections.get? i = some header ∧ headerAt? bytes i = some header
  null : slice? bytes (tableOffset bytes) 64 = some (List.replicate 64 0)
  strtab : run.image.sections.indexOf? strtabName = some (nameTable bytes)
  /-- The text of a name and the zero behind it lie in the string table. -/
  names : ∃ strtab, headerAt? bytes (nameTable bytes) = some strtab ∧
    strtab.offset.toNat + strtab.size.toNat ≤ bytes.length ∧
    ∀ i name given, run.sections[i]? = some (name, given) → ∃ header,
      headerAt? bytes (i + 1) = some header ∧
      textAt? bytes (strtab.offset.toNat + header.name.toNat) = some (utf8 name) ∧
      header.name.toNat + (utf8 name).length < strtab.size.toNat
  distinct : (run.sections.map fun entry => utf8 entry.1).Nodup

theorem section_named (run : Run) (named : run.image.NamesSections) {i : Nat} {name : String} {given : Bytes}
    (listed : run.sections[i]? = some (name, given)) : ∃ header,
      run.image.sections.get? (i + 1) = some header ∧
        (header.name.toNat, name) ∈ run.image.strings.entries := by
  rw [← run.listing, SectionTable.listing, List.getElem?_map, Option.map_eq_some_iff] at listed
  obtain ⟨entry, found, same⟩ := listed
  obtain ⟨rfl, -⟩ := Prod.mk.inj same
  refine ⟨entry.header, ?_, named (List.mem_map.mpr ⟨entry, List.mem_of_getElem? found, rfl⟩)⟩
  rw [Array.getElem?_toList] at found
  simp [SectionTable.get?, found]

theorem distinct_names (run : Run) : (run.sections.map fun entry => utf8 entry.1).Nodup := by
  have names : run.sections.map (fun entry => utf8 entry.1) =
      (run.image.sections.added.toList.map Section.name).map utf8 := by
    rw [← run.listing]
    simp [SectionTable.listing]
  rw [names]
  exact run.wellFormed.sections.nodup.map utf8_injective

theorem size_eq (run : Run) : run.image.sections.size = run.sections.length + 1 := by
  rw [← run.listing]
  simp [SectionTable.listing, SectionTable.size]

/-- Unless a header's name is overwritten or the string table is kept out of the file, a reader finds
every section by the name that it was added under. -/
theorem finds_sections (run : Run) (keeps : run.Follows Edit.KeepsNames)
    (occupied : run.Follows (Edit.KeepsOccupied strtabName)) {reserves : Nat → Bool}
    (serialized : run.image.serialize reserves = .ok bytes) : run.FindsSections bytes := by
  obtain ⟨size, finalSize, -, rfl⟩ := (Image.serialize_eq_ok_iff run.wellFormed).mp serialized
  have settled := run.settled finalSize
  obtain ⟨strtab, atStrtab, table⟩ := slice_strtab finalSize (run.strtab_occupied occupied)
  have index : nameTable run.image.bytes = 2 := by
    have found := (run.wellFormed.sections.indexed strtabName 2).mpr run.wellFormed.strtab
    exact Option.some.inj (settled.nameTable_bytes.symm.trans found)
  exact {
    count := settled.headerCount_bytes.trans run.size_eq
    headers := by
      intro i bound
      rw [settled.headerCount_bytes] at bound
      obtain ⟨header, here⟩ := SectionTable.get?_of_lt_size bound
      exact ⟨header, here, settled.headerAt?_bytes here⟩
    null := by
      rw [settled.tableOffset_bytes]
      exact run.image.slice_null
    strtab := settled.nameTable_bytes
    names := by
      -- The index in the file header leads to the table that the offsets of names are good for.
      refine ⟨strtab, ?_, ?_, ?_⟩
      · rw [index]
        exact settled.headerAt?_bytes atStrtab
      · exact inside_of_slice? table
      · intro i name given listed
        obtain ⟨header, here, stored⟩ := run.section_named (run.namesSections keeps) listed
        obtain ⟨text, inside⟩ := run.wellFormed.strings.textAt? table stored
        exact ⟨header, settled.headerAt?_bytes here, text, inside⟩
    distinct := run.distinct_names }

theorem sample_finds_sections : sample.image.serialize (· ≤ 482) = .ok sample.image.bytes ∧
    sample.FindsSections sample.image.bytes := by
  refine ⟨serialize_sample, finds_sections sample ?_ ?_ serialize_sample⟩
  · simp [Follows, sample, Edit.FollowAll, Edit.KeepsNames]
  · simp [Follows, sample, Edit.FollowAll, Edit.KeepsOccupied, strtabName]

/-! ## Symbols -/

/-- A reader finds the symbol table at index one, the symbols in it, and their names in the table that
it is linked to. -/
structure FindsSymbols (run : Run) (bytes : Bytes) (symtab strtab : SectionHeader) : Prop where
  atSymtab : headerAt? bytes 1 = some symtab
  atStrtab : headerAt? bytes symtab.link.toNat = some strtab
  link : run.image.sections.indexOf? strtabName = some symtab.link.toNat
  size : symtab.size.toNat = 24 * run.image.symbols.size
  info : symtab.info.toNat = run.image.symbols.firstGlobal
  symbols : ∀ i < run.image.symbols.size, ∃ symbol,
    run.image.symbols.get? i = some symbol ∧ symbolAt? bytes symtab i = some symbol ∧
      (infoBinding symbol.info = 0 ↔ i < symtab.info.toNat)
  count : run.symbolNames.length = run.image.symbols.size
  names : ∀ i name, run.symbolNames[i]? = some name → name ≠ "" → ∃ symbol,
    symbolAt? bytes symtab i = some symbol ∧
      textAt? bytes (strtab.offset.toNat + symbol.name.toNat) = some (utf8 name)

theorem symbol_named (run : Run) {i : Nat} {name : String} (listed : run.symbolNames[i]? = some name)
    (named : name ≠ "") : ∃ symbol, run.image.symbols.get? i = some symbol ∧
      (symbol.name.toNat, name) ∈ run.image.strings.entries := by
  obtain ⟨symbol, here, stored⟩ := getElem?_of_forall₂ run.namesSymbols listed
  exact ⟨symbol, (SymbolTable.get?_eq _ i).trans here, stored named⟩

-- A symbol is read back whole where the table of symbols is in the file.
theorem symbolAt?_of_slice (run : Run) {symtab : SectionHeader}
    (table : slice? bytes symtab.offset.toNat symtab.size.toNat = some (run.image.symbols.encode .little))
    {i : Nat} {symbol : Symbol} (here : run.image.symbols.get? i = some symbol) :
    symbolAt? bytes symtab i = some symbol := by
  rw [SymbolTable.get?_eq] at here
  have checked := run.wellFormed.symbols.checked symbol (List.mem_of_getElem? here)
  have inTable : slice? (run.image.symbols.encode .little) (24 * i) 24 = some (symbol.encode .little) :=
    slice?_flatMap (Symbol.length_encode .little) here
  have decoded := Symbol.take?_encode .little checked []
  rw [List.append_nil] at decoded
  rw [symbolAt?, slice?_trans table inTable]
  simp [decoded]

/-- Unless one of the two tables is kept out of the file or the symbol table is linked elsewhere, a
reader finds every symbol, the local ones in front, and the names that symbols were added under. -/
theorem finds_symbols (run : Run) (symtabOccupied : run.Follows (Edit.KeepsOccupied symtabName))
    (strtabOccupied : run.Follows (Edit.KeepsOccupied strtabName))
    (linked : run.Follows (Edit.KeepsLink symtabName)) {reserves : Nat → Bool}
    (serialized : run.image.serialize reserves = .ok bytes) :
    ∃ symtab strtab, run.FindsSymbols bytes symtab strtab := by
  obtain ⟨size, finalSize, -, rfl⟩ := (Image.serialize_eq_ok_iff run.wellFormed).mp serialized
  have settled := run.settled finalSize
  have wellFormed := run.wellFormed
  obtain ⟨strtab, atStrtab, texts⟩ := slice_strtab finalSize (run.strtab_occupied strtabOccupied)
  obtain ⟨symtab, atSymtab, table⟩ := slice_symtab finalSize (run.symtab_occupied symtabOccupied)
  have strtabIndex := (wellFormed.sections.indexed strtabName 2).mpr wellFormed.strtab
  have symtabIndex := (wellFormed.sections.indexed symtabName 1).mpr wellFormed.symtab
  -- Links are resolved when the image is finalized, whatever was stored there before.
  have link : symtab.link.toNat = 2 := by
    obtain ⟨target, found, stored⟩ := settled.resolved _ (run.symtab_linked linked)
    obtain rfl := Option.some.inj (strtabIndex.symm.trans found)
    rw [stored symtab atSymtab]
    rfl
  have info := settled.info symtabIndex atSymtab
  have length := length_of_slice? table
  rw [SymbolTable.length_encode, SymbolTable.encodedSize, Symbol.recordSize, Nat.mul_comm] at length
  refine ⟨symtab, strtab, ?_⟩
  exact {
    atSymtab := settled.headerAt?_bytes atSymtab
    atStrtab := by
      rw [link]
      exact settled.headerAt?_bytes atStrtab
    link := by rw [link, strtabIndex]
    size := length.symm
    info
    symbols := by
      intro i bound
      rw [← SymbolTable.length_symbols] at bound
      have listed := List.getElem?_eq_getElem bound
      have here := (SymbolTable.get?_eq _ i).trans listed
      refine ⟨_, here, run.symbolAt?_of_slice table here, ?_⟩
      -- The order of the symbols, with the binding as its half of a byte.
      rw [info, ← Symbol.binding_eq_localOnly_iff]
      exact wellFormed.symbols.partition listed
    count := run.namesSymbols.length_eq
    names := by
      intro i name listed named
      obtain ⟨symbol, here, stored⟩ := run.symbol_named listed named
      obtain ⟨text, -⟩ := wellFormed.strings.textAt? texts stored
      exact ⟨symbol, run.symbolAt?_of_slice table here, text⟩ }

theorem sample_finds_symbols : sample.image.serialize (· ≤ 482) = .ok sample.image.bytes ∧
    ∃ symtab strtab, sample.FindsSymbols sample.image.bytes symtab strtab := by
  refine ⟨serialize_sample, finds_symbols sample ?_ ?_ ?_ serialize_sample⟩
  · simp [Follows, sample, Edit.FollowAll, Edit.KeepsOccupied, symtabName]
  · simp [Follows, sample, Edit.FollowAll, Edit.KeepsOccupied, strtabName]
  · simp [Follows, sample, Edit.FollowAll, Edit.KeepsLink, symtabName]

end Run

end Elf64
