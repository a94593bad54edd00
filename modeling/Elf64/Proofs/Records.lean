import Elf64.FileHeader.Basic
import Elf64.Section.Table
import Elf64.StringTable
import Elf64.Symbol.Table

/-! Records and the numbers in them.

A number that fits its field reads back from the bytes of the field, wherever the field lies in its
record (`Record.readAt_encode`). Headers and symbols whose codes pass their checks read back as a
whole (`SectionHeader.take?_encode`, `Symbol.take?_encode`). -/

set_option autoImplicit false

namespace Elf64

/-! ## Fields -/

namespace FixedInt

theorem fits_count_iff (n : Nat) (width : Width) : (count n width).Fits ↔ n < width.patterns := by
  have positive : 0 < width.patterns := by cases width <;> decide
  simp only [Fits, least, greatest, count, Bool.false_eq_true, ↓reduceIte]
  omega

theorem check_count_iff (n : Nat) (width : Width) :
    (count n width).check = .ok () ↔ n < width.patterns := by
  simp [check, fits_count_iff]

theorem fits_byte (n : UInt8) : (byte n).Fits := (fits_count_iff n.toNat .byte).mpr n.toNat_lt

theorem fits_half (n : UInt16) : (half n).Fits := (fits_count_iff n.toNat .half).mpr n.toNat_lt

theorem fits_word (n : UInt32) : (word n).Fits := (fits_count_iff n.toNat .word).mpr n.toNat_lt

theorem fits_xword (n : UInt64) : (xword n).Fits := (fits_count_iff n.toNat .xword).mpr n.toNat_lt

theorem fits_signed_iff (value : Int) (width : Width) (order : ByteOrder) :
    Fits ⟨value, width, true, order⟩ ↔
      -((width.patterns / 2 : Nat) : Int) ≤ value ∧ value < (width.patterns / 2 : Nat) := by
  simp only [Fits, least, greatest, ↓reduceIte]
  omega

theorem fits_sword (n : Int32) : (sword n).Fits :=
  (fits_signed_iff n.toInt .word .little).mpr ⟨n.le_toInt, n.toInt_lt⟩

theorem fits_sxword (n : Int64) : (sxword n).Fits :=
  (fits_signed_iff n.toInt .xword .little).mpr ⟨n.le_toInt, n.toInt_lt⟩

end FixedInt

/-- A byte string always can be written; a number has to fit. -/
def Field.Fits : Field → Prop
  | bytes _ => True
  | number v => v.Fits

theorem Field.encode_number (order : ByteOrder) {v : FixedInt} {n : Nat} (value : v.value = n)
    (small : n < v.width.patterns) : (number v).encode order = order.write v.width.bytes n := by
  have reduced : v.value % v.width.patterns = n := by
    rw [value]
    exact_mod_cast Nat.mod_eq_of_lt small
  simp [encode, FixedInt.bytes, reduced]

@[simp] theorem Field.encode_bytes (order : ByteOrder) (content : Bytes) :
    (bytes content).encode order = content := rfl

@[simp] theorem Field.encode_byte (order : ByteOrder) (n : UInt8) :
    (number (.byte n)).encode order = order.write 1 n.toNat :=
  encode_number order rfl n.toNat_lt

@[simp] theorem Field.encode_half (order : ByteOrder) (n : UInt16) :
    (number (.half n)).encode order = order.write 2 n.toNat :=
  encode_number order rfl n.toNat_lt

@[simp] theorem Field.encode_word (order : ByteOrder) (n : UInt32) :
    (number (.word n)).encode order = order.write 4 n.toNat :=
  encode_number order rfl n.toNat_lt

@[simp] theorem Field.encode_xword (order : ByteOrder) (n : UInt64) :
    (number (.xword n)).encode order = order.write 8 n.toNat :=
  encode_number order rfl n.toNat_lt

theorem ByteOrder.take?_write (order : ByteOrder) {count n : Nat} (small : n < patterns count)
    (rest : Bytes) : order.take? count (order.write count n ++ rest) = some (n, rest) := by
  rw [order.take?_append (order.length_write count n), order.read_write, Nat.mod_eq_of_lt small]

@[simp] theorem ByteOrder.take?_byte (order : ByteOrder) (n : UInt8) (rest : Bytes) :
    order.take? 1 (order.write 1 n.toNat ++ rest) = some (n.toNat, rest) :=
  order.take?_write n.toNat_lt rest

@[simp] theorem ByteOrder.take?_half (order : ByteOrder) (n : UInt16) (rest : Bytes) :
    order.take? 2 (order.write 2 n.toNat ++ rest) = some (n.toNat, rest) :=
  order.take?_write n.toNat_lt rest

@[simp] theorem ByteOrder.take?_word (order : ByteOrder) (n : UInt32) (rest : Bytes) :
    order.take? 4 (order.write 4 n.toNat ++ rest) = some (n.toNat, rest) :=
  order.take?_write n.toNat_lt rest

@[simp] theorem ByteOrder.take?_xword (order : ByteOrder) (n : UInt64) (rest : Bytes) :
    order.take? 8 (order.write 8 n.toNat ++ rest) = some (n.toNat, rest) :=
  order.take?_write n.toNat_lt rest

/-! ## Records -/

namespace Record

def Fits (record : Record) : Prop := ∀ field ∈ record, field.Fits

@[simp] theorem encode_nil (order : ByteOrder) : encode order [] = [] := rfl

@[simp] theorem encode_cons (order : ByteOrder) (field : Field) (rest : Record) :
    encode order (field :: rest) = field.encode order ++ encode order rest := rfl

@[simp] theorem encode_append (order : ByteOrder) (first rest : Record) :
    encode order (first ++ rest) = encode order first ++ encode order rest := by
  simp [encode]

-- A number is read from where the fields before it end.
theorem readAt_encode (order : ByteOrder) {before after : Record} {v : FixedInt} {n offset : Nat}
    (value : v.value = n) (small : n < v.width.patterns)
    (ends : (encode order before).length = offset) (rest : Bytes) :
    order.readAt (encode order (before ++ .number v :: after) ++ rest) offset v.width.bytes = n := by
  subst ends
  have number := Field.encode_number order value small
  have read : order.read (order.write v.width.bytes n) = n :=
    (order.read_write v.width.bytes n).trans (Nat.mod_eq_of_lt small)
  simp [ByteOrder.readAt, number, read]

end Record

/-! ## Headers and symbols -/

@[simp] theorem FileHeader.length_encode (order : ByteOrder) (header : FileHeader) :
    (header.encode order).length = recordSize := by
  simp [encode, record, recordSize, ident, magic]

@[simp] theorem SectionHeader.length_encode (order : ByteOrder) (header : SectionHeader) :
    (header.encode order).length = recordSize := by
  simp [encode, record, recordSize]

@[simp] theorem Symbol.length_encode (order : ByteOrder) (symbol : Symbol) :
    (symbol.encode order).length = recordSize := by
  simp [encode, record, recordSize]

theorem FileHeader.record_fits (header : FileHeader) : header.record.Fits := by
  simp [Record.Fits, record, Field.Fits, FixedInt.fits_half, FixedInt.fits_word, FixedInt.fits_xword]

theorem SectionHeader.record_fits (header : SectionHeader) : header.record.Fits := by
  simp [Record.Fits, record, Field.Fits, FixedInt.fits_word, FixedInt.fits_xword]

theorem Symbol.record_fits (symbol : Symbol) : symbol.record.Fits := by
  simp [Record.Fits, record, Field.Fits, FixedInt.fits_byte, FixedInt.fits_half, FixedInt.fits_word,
    FixedInt.fits_xword]

-- A code that passes its check is the one that its number stands for.
theorem SectionType.check_eq_ok_iff (type : SectionType) :
    type.check = .ok () ↔ ofRaw type.raw = type := by
  simp [check]

theorem SectionRef.check_eq_ok_iff (place : SectionRef) :
    place.check = .ok () ↔ ofRaw place.raw = place := by
  simp [check]

theorem FileType.check_eq_ok_iff (type : FileType) : type.check = .ok () ↔ ofRaw type.raw = type := by
  simp [check]

theorem Machine.check_eq_ok_iff (machine : Machine) :
    machine.check = .ok () ↔ ofRaw machine.raw = machine := by
  simp [check]

theorem SectionType.ofRaw_raw {type : SectionType} (checked : type.check = .ok ()) :
    ofRaw type.raw = type := type.check_eq_ok_iff.mp checked

theorem SectionRef.ofRaw_raw {place : SectionRef} (checked : place.check = .ok ()) :
    ofRaw place.raw = place := place.check_eq_ok_iff.mp checked

theorem SectionHeader.take?_encode (order : ByteOrder) {header : SectionHeader}
    (checked : header.type.check = .ok ()) (rest : Bytes) :
    take? order (header.encode order ++ rest) = some (header, rest) := by
  simp [take?, encode, record, SectionType.ofRaw_raw checked]

theorem Symbol.take?_encode (order : ByteOrder) {symbol : Symbol}
    (checked : symbol.definedIn.check = .ok ()) (rest : Bytes) :
    take? order (symbol.encode order ++ rest) = some (symbol, rest) := by
  simp [take?, encode, record, Option.filter, SectionRef.ofRaw_raw checked]

/-! ## Tables -/

theorem length_flatMap {α : Type} {encode : α → Bytes} {size : Nat}
    (fixed : ∀ item, (encode item).length = size) (items : List α) :
    (items.flatMap encode).length = size * items.length := by
  induction items with
  | nil => rfl
  | cons first rest ih =>
    rw [List.flatMap_cons, List.length_append, fixed, ih, List.length_cons, Nat.mul_succ, Nat.add_comm]

@[simp] theorem SectionTable.length_encode (order : ByteOrder) (table : SectionTable) :
    (table.encode order).length = table.encodedSize := by
  rw [encode, length_flatMap (SectionHeader.length_encode order), encodedSize, Nat.mul_comm]
  simp [headers, size]

@[simp] theorem SymbolTable.length_encode (order : ByteOrder) (table : SymbolTable) :
    (table.encode order).length = table.encodedSize := by
  rw [encode, length_flatMap (Symbol.length_encode order), encodedSize, Nat.mul_comm]
  simp [symbols, size]

end Elf64
