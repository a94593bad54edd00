import Mathlib.Data.Int.ConditionallyCompleteOrder
import Mathlib.Data.Nat.Digits.Defs
import Mathlib.Order.Interval.Set.Defs
import Elf64.Proofs.Records

/-! Integers in fields of fixed width.

A field holds the numbers of one range of powers of two and no others, each as one bit pattern of its own:
the number modulo the count of patterns, written as digits to the base 256. Reading takes every pattern back
to the number it stands for, so that numbers in range and byte strings of the width correspond one to one
(`FixedInt.twosComplement`). -/

set_option autoImplicit false

namespace Elf64

/-! ## Bit patterns -/

theorem patterns_eq_pow (count : Nat) : patterns count = 2 ^ (8 * count) := by
  induction count with
  | zero => rfl
  | succ count ih => rw [patterns, ih, Nat.mul_succ, Nat.pow_add, Nat.mul_comm]

theorem Width.patterns_eq_pow (width : Width) : width.patterns = 2 ^ (8 * width.bytes) :=
  Elf64.patterns_eq_pow width.bytes

theorem Width.half_patterns (width : Width) : width.patterns / 2 = 2 ^ (8 * width.bytes - 1) := by
  cases width <;> rfl

-- Half of the patterns make up the other half.
theorem Width.two_mul_half_patterns (width : Width) : 2 * (width.patterns / 2) = width.patterns := by
  cases width <;> rfl

/-- The bytes of a number as digits to the base 256, the least significant one first. -/
def ByteOrder.digits (order : ByteOrder) (bytes : Bytes) : List Nat :=
  match order with
  | .little => bytes.map UInt8.toNat
  | .big => (bytes.map UInt8.toNat).reverse

theorem littleValue_eq_ofDigits (bytes : Bytes) :
    littleValue bytes = Nat.ofDigits 256 (bytes.map UInt8.toNat) := by
  induction bytes with
  | nil => rfl
  | cons byte rest ih => rw [littleValue, ih, List.map_cons, Nat.ofDigits_cons]

theorem ByteOrder.read_eq_ofDigits (order : ByteOrder) (bytes : Bytes) :
    order.read bytes = Nat.ofDigits 256 (order.digits bytes) := by
  cases order with
  | little => exact littleValue_eq_ofDigits bytes
  | big => rw [read, littleValue_eq_ofDigits, List.map_reverse]; rfl

namespace FixedInt

variable {v : FixedInt} {n : Nat} {width : Width} {stored : Bytes}

/-! ## Numbers in range -/

/-- The numbers that a field is meant for. -/
def range (width : Width) (signed : Bool) : Set Int :=
  if signed then Set.Icc (-2 ^ (8 * width.bytes - 1)) (2 ^ (8 * width.bytes - 1) - 1)
  else Set.Icc 0 (2 ^ (8 * width.bytes) - 1)

theorem fits_iff_mem_range (v : FixedInt) : v.Fits ↔ v.value ∈ range v.width v.signed := by
  obtain ⟨value, width, signed, order⟩ := v
  cases signed with
  | false => simp [Fits, least, greatest, range, width.patterns_eq_pow]
  | true => simp only [Fits, least, greatest, range, ↓reduceIte, width.half_patterns]; simp

theorem encode_of_fits (fits : v.Fits) : v.encode = .ok v.bytes := by
  rw [encode, check, if_pos fits]
  rfl

theorem encode_of_not_fits (misfits : ¬ v.Fits) : v.encode = .error (.outOfRange v) := by
  rw [encode, check, if_neg misfits]
  rfl

theorem encode_eq_ok_iff : v.encode = .ok stored ↔ v.Fits ∧ v.bytes = stored := by
  by_cases fits : v.Fits
  · simp [encode_of_fits fits, fits]
  · simp [encode_of_not_fits fits, fits]

/-! ## Numbers and their patterns -/

theorem pattern_lt (v : FixedInt) : (v.value % v.width.patterns).toNat < v.width.patterns := by
  have positive : 0 < v.width.patterns := by cases v.width <;> decide
  have bound := Int.emod_lt_of_pos v.value (Int.natCast_pos.mpr positive)
  omega

-- Reducing a number that fits and centering the result about zero gives the number back.
theorem ofPattern_of_fits (fits : v.Fits) :
    ofPattern (v.value % v.width.patterns).toNat v.width v.signed = v.value := by
  obtain ⟨value, width, signed, order⟩ := v
  have halves := width.two_mul_half_patterns
  have reduced : ((value % width.patterns).toNat : Int) = value % width.patterns :=
    Int.toNat_of_nonneg (Int.emod_nonneg _ (by cases width <;> decide))
  obtain ⟨lower, upper⟩ := fits
  cases signed with
  | false =>
    simp only [least, greatest, Bool.false_eq_true, ↓reduceIte] at lower upper
    simp only [ofPattern, Bool.false_eq_true, ↓reduceIte, reduced]
    exact Int.emod_eq_of_lt lower (by omega)
  | true =>
    simp only [least, greatest, ↓reduceIte] at lower upper
    simp only [ofPattern, ↓reduceIte, reduced, Int.emod_bmod]
    exact Int.bmod_eq_of_le_mul_two (by omega) (by omega)

theorem fits_ofPattern (small : n < width.patterns) (signed : Bool) (order : ByteOrder) :
    Fits ⟨ofPattern n width signed, width, signed, order⟩ := by
  have halves := width.two_mul_half_patterns
  cases signed with
  | false =>
    simp only [Fits, least, greatest, ofPattern, Bool.false_eq_true, ↓reduceIte]
    omega
  | true =>
    have positive : 0 < width.patterns := by omega
    have lower := @Int.le_bmod n width.patterns positive
    have upper := @Int.bmod_lt n width.patterns positive
    simp only [Fits, least, greatest, ofPattern, ↓reduceIte]
    omega

-- The number that a pattern stands for has this pattern.
theorem pattern_ofPattern (small : n < width.patterns) (signed : Bool) :
    (ofPattern n width signed % width.patterns).toNat = n := by
  have same : ofPattern n width signed % width.patterns = (n : Int) % width.patterns := by
    cases signed with
    | false => rfl
    | true => exact Int.bmod_emod
  rw [same]
  exact_mod_cast Nat.mod_eq_of_lt small

/-! ## Writing and reading -/

theorem read_bytes (v : FixedInt) : v.order.read v.bytes = (v.value % v.width.patterns).toNat := by
  rw [bytes, ByteOrder.read_write]
  exact Nat.mod_eq_of_lt v.pattern_lt

-- The digits that are stored make up the number modulo the count of patterns.
theorem ofDigits_bytes (v : FixedInt) :
    ((Nat.ofDigits 256 (v.order.digits v.bytes) : Nat) : Int) = v.value % 2 ^ (8 * v.width.bytes) := by
  have nonneg : 0 ≤ v.value % 2 ^ (8 * v.width.bytes) := Int.emod_nonneg _ (by positivity)
  rw [← ByteOrder.read_eq_ofDigits, read_bytes, v.width.patterns_eq_pow]
  exact_mod_cast Int.toNat_of_nonneg nonneg

theorem decode_bytes (fits : v.Fits) : decode v.bytes v.width v.signed v.order = .ok v := by
  rw [decode, if_pos v.length_bytes, read_bytes, ofPattern_of_fits fits]

theorem decode_eq_ok_iff {signed : Bool} {order : ByteOrder} :
    decode stored width signed order = .ok v ↔ stored.length = width.bytes ∧
      ⟨ofPattern (order.read stored) width signed, width, signed, order⟩ = v := by
  by_cases whole : stored.length = width.bytes <;> simp [decode, whole]

theorem read_lt_patterns (order : ByteOrder) (whole : stored.length = width.bytes) :
    order.read stored < width.patterns := by
  rw [Width.patterns, ← whole]
  exact order.read_lt stored

theorem encode_of_decode {signed : Bool} {order : ByteOrder}
    (decoded : decode stored width signed order = .ok v) : v.Fits ∧ v.encode = .ok stored := by
  obtain ⟨whole, rfl⟩ := decode_eq_ok_iff.mp decoded
  have small := read_lt_patterns order whole
  have fits := fits_ofPattern small signed order
  refine ⟨fits, encode_eq_ok_iff.mpr ⟨fits, ?_⟩⟩
  rw [bytes, pattern_ofPattern small, ← whole, order.write_read]

theorem bytes_big (value : Int) (width : Width) (signed : Bool) :
    bytes ⟨value, width, signed, .big⟩ = (bytes ⟨value, width, signed, .little⟩).reverse := rfl

/-- A field of this kind holds exactly the numbers of its range, in one way each. -/
structure TwosComplement (width : Width) (signed : Bool) (order : ByteOrder) : Prop where
  accepted : ∀ value, (∃ bytes, encode ⟨value, width, signed, order⟩ = .ok bytes) ↔
    value ∈ range width signed
  refused : ∀ value, value ∉ range width signed →
    ∃ e, encode ⟨value, width, signed, order⟩ = .error e ∧ e.kind = .encodingOverflow
  /-- What is written is as wide as the field, is the number modulo the count of patterns, and reads back. -/
  written : ∀ value bytes, encode ⟨value, width, signed, order⟩ = .ok bytes →
    bytes.length = width.bytes ∧
      ((Nat.ofDigits 256 (order.digits bytes) : Nat) : Int) = value % 2 ^ (8 * width.bytes) ∧
      decode bytes width signed order = .ok ⟨value, width, signed, order⟩
  readable : ∀ bytes, (∃ v, decode bytes width signed order = .ok v) ↔ bytes.length = width.bytes
  /-- What is read is in range and is written as it was. -/
  restored : ∀ bytes v, decode bytes width signed order = .ok v →
    v.value ∈ range width signed ∧ v.encode = .ok bytes
  mirrored : ∀ value bytes, encode ⟨value, width, signed, .little⟩ = .ok bytes ↔
    encode ⟨value, width, signed, .big⟩ = .ok bytes.reverse

theorem twosComplement (width : Width) (signed : Bool) (order : ByteOrder) :
    TwosComplement width signed order where
  accepted value := by
    simp only [encode_eq_ok_iff, exists_and_left, exists_eq', and_true]
    exact fits_iff_mem_range ⟨value, width, signed, order⟩
  refused value outside := by
    refine ⟨_, encode_of_not_fits fun fits => outside ?_, rfl⟩
    exact (fits_iff_mem_range _).mp fits
  written value bytes encoded := by
    obtain ⟨fits, rfl⟩ := encode_eq_ok_iff.mp encoded
    exact ⟨length_bytes _, ofDigits_bytes ⟨value, width, signed, order⟩, decode_bytes fits⟩
  readable bytes := by
    simp only [decode_eq_ok_iff, exists_and_left, exists_eq', and_true]
  restored bytes v decoded := by
    obtain ⟨fits, encoded⟩ := encode_of_decode decoded
    obtain ⟨-, rfl⟩ := decode_eq_ok_iff.mp decoded
    exact ⟨(fits_iff_mem_range _).mp fits, encoded⟩
  mirrored value bytes := by
    rw [encode_eq_ok_iff, encode_eq_ok_iff, bytes_big, List.reverse_inj]
    rfl

example : encode ⟨-2, .half, true, .big⟩ = .ok [0xff, 0xfe] := rfl

/-! ## Numbers apart from their fields -/

variable {w : FixedInt}

theorem sameNumber_iff : v.sameNumber w ↔ v.value = w.value := beq_iff_eq

/-- Comparing values as numbers is an equivalence, whatever fields they are stored in. -/
theorem sameNumber_equivalence : Equivalence fun v w : FixedInt => v.sameNumber w = true where
  refl _ := sameNumber_iff.mpr rfl
  symm same := sameNumber_iff.mpr (sameNumber_iff.mp same).symm
  trans first second := sameNumber_iff.mpr ((sameNumber_iff.mp first).trans (sameNumber_iff.mp second))

/-- Values that are the same number have the same hash. -/
theorem numberHash_eq (same : v.sameNumber w) : v.numberHash = w.numberHash := by
  rw [numberHash, numberHash, sameNumber_iff.mp same]

/-- A value of a machine type, in the field that is made for it. -/
inductive Typed : FixedInt → Prop where
  | byte (n : UInt8) : Typed (byte n)
  | half (n : UInt16) : Typed (half n)
  | word (n : UInt32) : Typed (word n)
  | sword (n : Int32) : Typed (sword n)
  | xword (n : UInt64) : Typed (xword n)
  | sxword (n : Int64) : Typed (sxword n)

theorem Typed.fits (typed : v.Typed) : v.Fits := by
  cases typed with
  | byte n => exact fits_byte n
  | half n => exact fits_half n
  | word n => exact fits_word n
  | sword n => exact fits_sword n
  | xword n => exact fits_xword n
  | sxword n => exact fits_sxword n

/-- A value of a machine type is never refused, and in either byte order the same number is read back. -/
theorem Typed.readsBack (typed : v.Typed) (order : ByteOrder) :
    ∃ bytes back, encode { v with order } = .ok bytes ∧
      decode bytes v.width v.signed order = .ok back ∧ back.sameNumber v := by
  have fits : Fits { v with order } := typed.fits
  exact ⟨_, _, encode_of_fits fits, decode_bytes fits, sameNumber_iff.mpr rfl⟩

end FixedInt

end Elf64
