import Mathlib.Algebra.Ring.Nat
import Elf64.Proofs.Acceptance
import Elf64.Proofs.SymbolInfo
import Elf64.Proofs.Symbols
import Elf64.Proofs.Sections
import Elf64.Proofs.Writer

/-! Records as codecs.

Reading the fields of a record at their offsets inverts writing it, up to the aliases of codes that the checks
refuse (`SectionHeader.read_encode`, `Symbol.read_encode`, `FileHeader.read_encode`). Writing what was read
puts the same bytes back (`ByteOrder.rewrite_eq`), whatever the bytes are, so that records and byte
strings correspond one to one, in both byte orders (`exact_codecs`). -/

set_option autoImplicit false

namespace Elf64

/-! ## Numbers at offsets -/

namespace ByteOrder

variable {order : ByteOrder} {front bytes rest : Bytes} {offset count : Nat}

theorem patterns_mono {small large : Nat} (le : small ≤ large) : patterns small ≤ patterns large := by
  induction le with
  | refl => exact Nat.le_refl _
  | step _ ih =>
    rw [patterns]
    omega

theorem readAt_lt (order : ByteOrder) (bytes : Bytes) (offset count : Nat) :
    order.readAt bytes offset count < patterns count := by
  refine Nat.lt_of_lt_of_le (order.read_lt _) (patterns_mono ?_)
  rw [List.length_take]
  exact Nat.min_le_left _ _

theorem readAt_mod (order : ByteOrder) (bytes : Bytes) (offset count : Nat) :
    order.readAt bytes offset count % patterns count = order.readAt bytes offset count :=
  Nat.mod_eq_of_lt (order.readAt_lt bytes offset count)

@[simp] theorem readAt_mod_byte (order : ByteOrder) (bytes : Bytes) (offset : Nat) :
    order.readAt bytes offset 1 % 256 = order.readAt bytes offset 1 := order.readAt_mod bytes offset 1

@[simp] theorem readAt_mod_half (order : ByteOrder) (bytes : Bytes) (offset : Nat) :
    order.readAt bytes offset 2 % 65536 = order.readAt bytes offset 2 := order.readAt_mod bytes offset 2

@[simp] theorem readAt_mod_word (order : ByteOrder) (bytes : Bytes) (offset : Nat) :
    order.readAt bytes offset 4 % 4294967296 = order.readAt bytes offset 4 := order.readAt_mod bytes offset 4

@[simp] theorem readAt_mod_xword (order : ByteOrder) (bytes : Bytes) (offset : Nat) :
    order.readAt bytes offset 8 % 18446744073709551616 = order.readAt bytes offset 8 :=
  order.readAt_mod bytes offset 8

-- What is read behind the front of a byte string is read from the rest.
theorem readAt_append (behind : front.length ≤ offset) :
    order.readAt (front ++ rest) offset count = order.readAt rest (offset - front.length) count := by
  rw [readAt, readAt, List.drop_append, List.drop_of_length_le behind, List.nil_append]

theorem readAt_write {n : Nat} (small : n < patterns count) (rest : Bytes) :
    order.readAt (order.write count n ++ rest) 0 count = n := by
  rw [readAt, List.drop_zero, List.take_left' (order.length_write count n), order.read_write,
    Nat.mod_eq_of_lt small]

@[simp] theorem readAt_byte (n : UInt8) (rest : Bytes) :
    order.readAt (order.write 1 n.toNat ++ rest) 0 1 = n.toNat := readAt_write n.toNat_lt rest

@[simp] theorem readAt_half (n : UInt16) (rest : Bytes) :
    order.readAt (order.write 2 n.toNat ++ rest) 0 2 = n.toNat := readAt_write n.toNat_lt rest

@[simp] theorem readAt_word (n : UInt32) (rest : Bytes) :
    order.readAt (order.write 4 n.toNat ++ rest) 0 4 = n.toNat := readAt_write n.toNat_lt rest

@[simp] theorem readAt_xword (n : UInt64) (rest : Bytes) :
    order.readAt (order.write 8 n.toNat ++ rest) 0 8 = n.toNat := readAt_write n.toNat_lt rest

/-- Numbers of these many bytes, read one behind the other and written again. -/
def rewrite (order : ByteOrder) (bytes : Bytes) : Nat → List Nat → Bytes
  | _, [] => []
  | offset, count :: counts =>
    order.write count (order.readAt bytes offset count) ++ rewrite order bytes (offset + count) counts

-- Writing a number again puts its bytes back.
theorem write_readAt (order : ByteOrder) (inside : offset + count ≤ bytes.length) :
    order.write count (order.readAt bytes offset count) = (bytes.drop offset).take count := by
  have length : ((bytes.drop offset).take count).length = count := by
    rw [List.length_take, List.length_drop]
    omega
  have same := order.write_read ((bytes.drop offset).take count)
  rwa [length] at same

theorem rewrite_eq (order : ByteOrder) {counts : List Nat} (inside : offset + counts.sum ≤ bytes.length) :
    order.rewrite bytes offset counts = (bytes.drop offset).take counts.sum := by
  induction counts generalizing offset with
  | nil => simp [rewrite]
  | cons count counts ih =>
    rw [List.sum_cons, ← Nat.add_assoc] at inside
    rw [rewrite, write_readAt order (by omega), ih inside, List.sum_cons, List.take_add, List.drop_drop]

theorem rewrite_all (order : ByteOrder) {counts : List Nat} (whole : bytes.length = counts.sum) :
    order.rewrite bytes 0 counts = bytes := by
  rw [rewrite_eq order (by omega), List.drop_zero, ← whole, List.take_length]

end ByteOrder

/-! ## Fields at their offsets -/

/-- The fields of a section header, each read where the format has it. -/
def SectionHeader.read (order : ByteOrder) (bytes : Bytes) : SectionHeader where
  name := .ofNat (order.readAt bytes 0 4)
  type := .ofRaw (.ofNat (order.readAt bytes 4 4))
  flags := ⟨.ofNat (order.readAt bytes 8 8)⟩
  addr := .ofNat (order.readAt bytes 16 8)
  offset := .ofNat (order.readAt bytes 24 8)
  size := .ofNat (order.readAt bytes 32 8)
  link := .ofNat (order.readAt bytes 40 4)
  info := .ofNat (order.readAt bytes 44 4)
  addralign := .ofNat (order.readAt bytes 48 8)
  entsize := .ofNat (order.readAt bytes 56 8)

def Symbol.read (order : ByteOrder) (bytes : Bytes) : Symbol where
  name := .ofNat (order.readAt bytes 0 4)
  info := .ofNat (order.readAt bytes 4 1)
  definedIn := .ofRaw (.ofNat (order.readAt bytes 6 2))
  value := .ofNat (order.readAt bytes 8 8)
  size := .ofNat (order.readAt bytes 16 8)

def FileHeader.read (order : ByteOrder) (bytes : Bytes) : FileHeader where
  osAbi := .ofNat (order.readAt bytes 7 1)
  abiVersion := .ofNat (order.readAt bytes 8 1)
  fileType := .ofRaw (.ofNat (order.readAt bytes 16 2))
  machine := .ofRaw (.ofNat (order.readAt bytes 18 2))
  version := .ofNat (order.readAt bytes 20 4)
  entry := .ofNat (order.readAt bytes 24 8)
  sectionTableOffset := .ofNat (order.readAt bytes 40 8)
  flags := .ofNat (order.readAt bytes 48 4)
  sectionCount := .ofNat (order.readAt bytes 60 2)
  nameTableIndex := .ofNat (order.readAt bytes 62 2)

/-- The fields of a file header that never vary. -/
structure FileHeader.Constants (order : ByteOrder) (bytes : Bytes) : Prop where
  front : bytes.take 7 = magic ++ [2, 1, 1]
  padding : (bytes.drop 9).take 7 = List.replicate 7 0
  programTableOffset : order.readAt bytes 32 8 = 0
  headerSize : order.readAt bytes 52 2 = 64
  programEntrySize : order.readAt bytes 54 2 = 0
  programCount : order.readAt bytes 56 2 = 0
  sectionEntrySize : order.readAt bytes 58 2 = 64

-- Of the fields that are read back, only codes can be other than they were.
theorem SectionHeader.read_encode (order : ByteOrder) (header : SectionHeader) (rest : Bytes) :
    read order (header.encode order ++ rest) = { header with type := .ofRaw header.type.raw } := by
  simp [read, encode, record, ByteOrder.readAt_append]

theorem Symbol.read_encode (order : ByteOrder) (symbol : Symbol) (rest : Bytes) :
    read order (symbol.encode order ++ rest) =
      { symbol with definedIn := .ofRaw symbol.definedIn.raw } := by
  simp [read, encode, record, ByteOrder.readAt_append]

@[simp] theorem FileHeader.length_ident (header : FileHeader) : header.ident.length = 16 := by
  simp [ident, magic]

theorem ByteOrder.readAt_one (order : ByteOrder) {bytes : Bytes} {offset : Nat} {byte : UInt8}
    (here : bytes[offset]? = some byte) : order.readAt bytes offset 1 = byte.toNat := by
  have one : (bytes.drop offset).take 1 = [byte] := by
    rw [← Nat.add_zero offset, ← List.getElem?_drop] at here
    simp [List.take_one, List.head?_eq_getElem?, here]
  cases order <;> simp [readAt, one, read, littleValue]

theorem SectionHeader.read_encode_iff (order : ByteOrder) (header : SectionHeader) :
    read order (header.encode order) = header ↔ SectionType.ofRaw header.type.raw = header.type := by
  have same := read_encode order header []
  rw [List.append_nil] at same
  rw [same]
  cases header
  simp

theorem Symbol.read_encode_iff (order : ByteOrder) (symbol : Symbol) :
    read order (symbol.encode order) = symbol ↔ SectionRef.ofRaw symbol.definedIn.raw = symbol.definedIn := by
  have same := read_encode order symbol []
  rw [List.append_nil] at same
  rw [same]
  cases symbol
  simp

theorem FileHeader.read_encode (order : ByteOrder) (header : FileHeader) (rest : Bytes) :
    read order (header.encode order ++ rest) =
      { header with fileType := .ofRaw header.fileType.raw, machine := .ofRaw header.machine.raw } := by
  have osAbi : order.readAt (header.encode order ++ rest) 7 1 = header.osAbi.toNat :=
    order.readAt_one (by simp [encode, record, ident, magic])
  have abiVersion : order.readAt (header.encode order ++ rest) 8 1 = header.abiVersion.toNat :=
    order.readAt_one (by simp [encode, record, ident, magic])
  simp only [read, osAbi, abiVersion]
  simp [encode, record, ByteOrder.readAt_append]

theorem FileHeader.constants_encode (order : ByteOrder) (header : FileHeader) (rest : Bytes) :
    Constants order (header.encode order ++ rest) where
  front := by simp [encode, record, ident, magic]
  padding := by simp [encode, record, ident, magic]
  programTableOffset := by
    show order.readAt _ 32 8 = programTableOffset.toNat
    simp [encode, record, ByteOrder.readAt_append, -UInt16.toNat_ofNat']
  headerSize := by
    show order.readAt _ 52 2 = (UInt16.ofNat recordSize).toNat
    simp [encode, record, ByteOrder.readAt_append, -UInt16.toNat_ofNat']
  programEntrySize := by
    show order.readAt _ 54 2 = programEntrySize.toNat
    simp [encode, record, ByteOrder.readAt_append, -UInt16.toNat_ofNat']
  programCount := by
    show order.readAt _ 56 2 = programCount.toNat
    simp [encode, record, ByteOrder.readAt_append, -UInt16.toNat_ofNat']
  sectionEntrySize := by
    show order.readAt _ 58 2 = sectionEntrySize.toNat
    simp [encode, record, ByteOrder.readAt_append, -UInt16.toNat_ofNat']

theorem SectionHeader.encode_read (order : ByteOrder) {bytes : Bytes} (length : bytes.length = 64) :
    (read order bytes).encode order = bytes := by
  have fields : (read order bytes).encode order = order.rewrite bytes 0 [4, 4, 8, 8, 8, 8, 4, 4, 8, 8] := by
    simp [read, encode, record, ByteOrder.rewrite]
  rw [fields, order.rewrite_all length]

theorem Symbol.encode_read (order : ByteOrder) {bytes : Bytes} (length : bytes.length = 24)
    (zero : bytes[5]? = some other) : (read order bytes).encode order = bytes := by
  have unused : order.readAt bytes 5 1 = other.toNat := order.readAt_one zero
  have fields : (read order bytes).encode order = order.rewrite bytes 0 [4, 1, 1, 2, 8, 8] := by
    simp [read, encode, record, ByteOrder.rewrite, unused]
  rw [fields, order.rewrite_all length]

/-! ## Tables -/

/-- The first `count` records of a byte string, each of them of `size` bytes. -/
def splitRecords (size : Nat) : Nat → Bytes → List Bytes
  | 0, _ => []
  | count + 1, bytes => bytes.take size :: splitRecords size count (bytes.drop size)

theorem splitRecords_flatMap {α : Type} {encode : α → Bytes} {size : Nat}
    (fixed : ∀ item, (encode item).length = size) (items : List α) :
    splitRecords size items.length (items.flatMap encode) = items.map encode := by
  induction items with
  | nil => rfl
  | cons first rest ih =>
    rw [List.flatMap_cons, List.length_cons, splitRecords, List.take_left' (fixed first),
      List.drop_left' (fixed first), ih, List.map_cons]

/-- The items of a table, taken from its bytes record by record. -/
def readRecords {α : Type} (size : Nat) (read : Bytes → α) (bytes : Bytes) : List α :=
  (splitRecords size (bytes.length / size) bytes).map read

-- The items come back if and only if each of them does.
theorem readRecords_flatMap_iff {α : Type} {encode : α → Bytes} {size : Nat} {read : Bytes → α}
    (fixed : ∀ item, (encode item).length = size) (positive : 0 < size) (items : List α) :
    readRecords size read (items.flatMap encode) = items ↔ ∀ item ∈ items, read (encode item) = item := by
  have count : (items.flatMap encode).length / size = items.length := by
    rw [length_flatMap fixed, Nat.mul_div_cancel_left _ positive]
  rw [readRecords, count, splitRecords_flatMap fixed, List.map_map]
  conv_lhs => rhs; rw [← List.map_id items]
  exact List.map_inj_left

theorem SectionTable.readRecords_encode_iff (order : ByteOrder) (table : SectionTable) :
    readRecords 64 (SectionHeader.read order) (table.encode order) = table.headers ↔
      ∀ header ∈ table.headers, header.type.check = .ok () := by
  refine (readRecords_flatMap_iff (SectionHeader.length_encode order) (by decide) _).trans ?_
  refine forall₂_congr fun header _ => ?_
  rw [SectionHeader.read_encode_iff, SectionType.check_eq_ok_iff]

theorem SymbolTable.readRecords_encode_iff (order : ByteOrder) (table : SymbolTable) :
    readRecords 24 (Symbol.read order) (table.encode order) = table.symbols ↔
      ∀ symbol ∈ table.symbols, symbol.validate = .ok () := by
  refine (readRecords_flatMap_iff (Symbol.length_encode order) (by decide) _).trans ?_
  refine forall₂_congr fun symbol _ => ?_
  rw [Symbol.read_encode_iff, Symbol.validate, SectionRef.check_eq_ok_iff]

/-- The table of the sections that can be added one after the other. -/
def SectionTable.filled (entries : List Section) : SectionTable :=
  entries.foldl (fun table entry => (table.add entry).2) {}

/-- The table of the symbols that can be added one after the other. -/
def SymbolTable.filled (entries : List (String × Symbol)) : SymbolTable :=
  entries.foldl (fun table entry => (table.add entry.1 entry.2).2) {}

theorem SectionTable.validate_push {table : SectionTable} (valid : table.validate = .ok ())
    {entry : Section} (checked : entry.header.validate = .ok ()) : (table.push entry).validate = .ok () := by
  have headers : (table.push entry).headers = table.headers ++ [entry.header] := by simp [headers, push]
  rw [validate_eq_ok_iff] at valid ⊢
  intro header member
  rw [headers, List.mem_append, List.mem_singleton] at member
  rcases member with old | rfl
  · exact valid header old
  · exact checked

theorem SectionTable.validate_filled (entries : List Section) : (filled entries).validate = .ok () :=
  Outcome.foldl_invariant (motive := fun table : SectionTable => table.validate = .ok ()) (fun _ _ => rfl)
    (fun checked valid => validate_push valid (check_eq_ok checked).2) rfl entries

theorem SymbolTable.wellFormed_filled (entries : List (String × Symbol)) : (filled entries).WellFormed :=
  Outcome.foldl_invariant (fun _ _ => rfl)
    (fun checked wellFormed => wellFormed.push (check_eq_ok checked).1 (check_eq_ok checked).2 _)
    wellFormed_empty entries

/-! ## Codecs -/

open Output (Writer)

/-- Writing a record appends this many bytes, from which the item is read back. -/
structure Writes {α : Type} (order : ByteOrder) (record : Record) (size : Nat) (read : Bytes → α)
    (item : α) : Prop where
  appends : ∀ (writer : Writer) (stored : Bytes), writer.Holds order stored →
    Writer.Leaves (writer.writeRecord record) order (stored ++ record.encode order)
  length : (record.encode order).length = size
  readBack : read (record.encode order) = item

/-- Writing these records one after the other appends these bytes. -/
def WritesAll (order : ByteOrder) (records : List Record) (bytes : Bytes) : Prop :=
  ∀ (writer : Writer) (stored : Bytes), writer.Holds order stored →
    Writer.Leaves (writer.writeRecords records) order (stored ++ bytes)

/-- Records of all three kinds are written in one way only and read back, and so are tables. -/
structure ExactCodecs (order : ByteOrder) : Prop where
  sectionHeader : ∀ header : SectionHeader, header.type.check = .ok () →
    Writes order header.record 64 (SectionHeader.read order) header
  symbol : ∀ settings, (Symbol.built settings).validate = .ok () →
    Writes order (Symbol.built settings).record 24 (Symbol.read order) (Symbol.built settings)
  /-- The halves of the fifth byte are the binding and the type that were accepted last. -/
  symbolInfo : ∀ settings, ∃ info, ((Symbol.built settings).encode order)[4]? = some info ∧
    .ofRaw (infoBinding info) = (settings.filterMap Symbol.Setting.binding?).getLastD .localOnly ∧
    .ofRaw (infoType info) = (settings.filterMap Symbol.Setting.type?).getLastD .noType
  fileHeader : ∀ header : FileHeader, header.fileType.check = .ok () → header.machine.check = .ok () →
    Writes order header.record 64 (FileHeader.read order) header ∧
      FileHeader.Constants order (header.encode order)
  uniqueHeader : ∀ bytes : Bytes, bytes.length = 64 →
    ∃! header : SectionHeader, header.type.check = .ok () ∧ header.encode order = bytes
  uniqueSymbol : ∀ bytes : Bytes, bytes.length = 24 → bytes[5]? = some 0 →
    ∃! symbol : Symbol, (∃ settings, Symbol.built settings = symbol) ∧ symbol.validate = .ok () ∧
      symbol.encode order = bytes
  sectionTable : ∀ table : SectionTable, WritesAll order table.records (table.encode order) ∧
    (table.encode order).length = table.encodedSize ∧
    table.encodedSize = 64 * table.headers.length ∧
    (readRecords 64 (SectionHeader.read order) (table.encode order) = table.headers ↔
      ∀ header ∈ table.headers, header.type.check = .ok ())
  filledSections : ∀ entries, let table := SectionTable.filled entries
    readRecords 64 (SectionHeader.read order) (table.encode order) = table.headers
  symbolTable : ∀ table : SymbolTable, WritesAll order table.records (table.encode order) ∧
    (table.encode order).length = table.encodedSize ∧
    table.encodedSize = 24 * table.symbols.length ∧
    (readRecords 24 (Symbol.read order) (table.encode order) = table.symbols ↔
      ∀ symbol ∈ table.symbols, symbol.validate = .ok ())
  filledSymbols : ∀ entries, let table := SymbolTable.filled entries
    readRecords 24 (Symbol.read order) (table.encode order) = table.symbols

theorem writesAll_of_fit (order : ByteOrder) {records : List Record}
    (fits : ∀ record ∈ records, record.Fits) :
    WritesAll order records (records.flatMap (Record.encode order)) :=
  fun _ _ holds => holds.writeRecords fits

theorem SectionTable.writesAll (order : ByteOrder) (table : SectionTable) :
    WritesAll order table.records (table.encode order) := by
  rw [← encode_records]
  exact writesAll_of_fit order table.records_fit

theorem SymbolTable.writesAll (order : ByteOrder) (table : SymbolTable) :
    WritesAll order table.records (table.encode order) := by
  rw [← encode_records]
  exact writesAll_of_fit order table.records_fit

theorem SectionHeader.writes (order : ByteOrder) {header : SectionHeader}
    (checked : header.type.check = .ok ()) : Writes order header.record 64 (read order) header where
  appends _ _ holds := holds.writeRecord header.record_fits
  length := header.length_encode order
  readBack := (read_encode_iff order header).mpr (SectionType.ofRaw_raw checked)

theorem Symbol.writes (order : ByteOrder) {symbol : Symbol} (valid : symbol.validate = .ok ()) :
    Writes order symbol.record 24 (read order) symbol where
  appends _ _ holds := holds.writeRecord symbol.record_fits
  length := symbol.length_encode order
  readBack := (read_encode_iff order symbol).mpr (SectionRef.ofRaw_raw valid)

theorem FileHeader.writes (order : ByteOrder) {header : FileHeader}
    (type : header.fileType.check = .ok ()) (machine : header.machine.check = .ok ()) :
    Writes order header.record 64 (read order) header where
  appends _ _ holds := holds.writeRecord header.record_fits
  length := header.length_encode order
  readBack := by
    have same := read_encode order header []
    rw [List.append_nil, (FileType.check_eq_ok_iff _).mp type, (Machine.check_eq_ok_iff _).mp machine] at same
    exact same

-- The header that is read is the only one that can be valid, for reading inverts writing.
theorem SectionHeader.existsUnique_encode (order : ByteOrder) {bytes : Bytes} (length : bytes.length = 64) :
    ∃! header : SectionHeader, header.type.check = .ok () ∧ header.encode order = bytes := by
  refine ⟨read order bytes, ⟨?_, encode_read order length⟩, ?_⟩
  · rw [SectionType.check_eq_ok_iff, read, SectionType.raw_ofRaw]
  · rintro header ⟨checked, rfl⟩
    exact (writes order checked).readBack.symm

theorem Symbol.existsUnique_encode (order : ByteOrder) {bytes : Bytes} (length : bytes.length = 24)
    (zero : bytes[5]? = some 0) : ∃! symbol : Symbol, (∃ settings, built settings = symbol) ∧
      symbol.validate = .ok () ∧ symbol.encode order = bytes := by
  refine ⟨read order bytes, ⟨exists_built _, ?_, encode_read order length zero⟩, ?_⟩
  · rw [validate, SectionRef.check_eq_ok_iff, read, SectionRef.raw_ofRaw]
  · rintro symbol ⟨-, valid, rfl⟩
    exact (writes order valid).readBack.symm

theorem Symbol.getElem?_encode_info (order : ByteOrder) (symbol : Symbol) :
    (symbol.encode order)[4]? = some symbol.info := by
  have one : order.write 1 symbol.info.toNat = [symbol.info] := by
    cases order <;> simp [ByteOrder.write, little]
  simp [encode, record, one]

theorem exact_codecs (order : ByteOrder) : ExactCodecs order where
  sectionHeader _ checked := SectionHeader.writes order checked
  symbol _ valid := Symbol.writes order valid
  symbolInfo settings := ⟨_, Symbol.getElem?_encode_info order _, Symbol.binding_built settings,
    Symbol.type_built settings⟩
  fileHeader header type machine := by
    refine ⟨FileHeader.writes order type machine, ?_⟩
    simpa using FileHeader.constants_encode order header []
  uniqueHeader _ length := SectionHeader.existsUnique_encode order length
  uniqueSymbol _ length zero := Symbol.existsUnique_encode order length zero
  sectionTable table := by
    refine ⟨table.writesAll order, table.length_encode order, ?_, table.readRecords_encode_iff order⟩
    rw [SectionTable.encodedSize, SectionTable.size, SectionHeader.recordSize, Nat.mul_comm]
    simp [SectionTable.headers]
  filledSections entries := by
    refine (SectionTable.readRecords_encode_iff order _).mpr fun header member => ?_
    obtain ⟨i, here⟩ := List.mem_iff_getElem?.mp member
    rw [← SectionTable.get?_eq] at here
    exact SectionTable.type_check_of_validate (SectionTable.validate_filled entries) here
  symbolTable table := by
    refine ⟨table.writesAll order, table.length_encode order, ?_, table.readRecords_encode_iff order⟩
    rw [SymbolTable.encodedSize, Symbol.recordSize, Nat.mul_comm, SymbolTable.length_symbols]
  filledSymbols entries :=
    (SymbolTable.readRecords_encode_iff order _).mpr (SymbolTable.wellFormed_filled entries).checked

-- The second binding is refused, since its number is too low for an operating system.
theorem exact_codecs_big :
    let symbol := Symbol.built [.binding .global, .binding (.os 3), .type .func, .definedIn (.index 1)]
    symbol.validate = .ok () ∧ symbol.binding = .global ∧
      Writes .big symbol.record 24 (Symbol.read .big) symbol :=
  ⟨rfl, rfl, (exact_codecs .big).symbol _ rfl⟩

end Elf64
