import Elf64.Bytes

/-! Integers together with the field they are stored in.

The number is unbounded, so that a value that does not fit its field can be described before it
is refused. -/

set_option autoImplicit false

namespace Elf64

/-- The size of a field that holds one integer. -/
inductive Width where
  | byte
  | half
  | word
  | xword
  deriving DecidableEq, Repr

namespace Width

def bytes : Width → Nat
  | byte => 1
  | half => 2
  | word => 4
  | xword => 8

/-- How many bit patterns a field has. -/
def patterns (width : Width) : Nat := Elf64.patterns width.bytes

end Width

structure FixedInt where
  value : Int
  width : Width
  signed : Bool
  order : ByteOrder := .little
  deriving DecidableEq, Repr

namespace FixedInt

def byte (n : UInt8) : FixedInt := ⟨n.toNat, .byte, false, .little⟩

def half (n : UInt16) : FixedInt := ⟨n.toNat, .half, false, .little⟩

def word (n : UInt32) : FixedInt := ⟨n.toNat, .word, false, .little⟩

def xword (n : UInt64) : FixedInt := ⟨n.toNat, .xword, false, .little⟩

def sword (n : Int32) : FixedInt := ⟨n.toInt, .word, true, .little⟩

def sxword (n : Int64) : FixedInt := ⟨n.toInt, .xword, true, .little⟩

/-- A count or an index, which has no upper bound in memory. -/
def count (n : Nat) (width : Width) : FixedInt := ⟨n, width, false, .little⟩

/-- The least value that the field can hold. -/
def least (v : FixedInt) : Int := if v.signed then -(v.width.patterns / 2 : Nat) else 0

/-- The greatest value that the field can hold. -/
def greatest (v : FixedInt) : Int :=
  if v.signed then (v.width.patterns / 2 : Nat) - 1 else (v.width.patterns : Nat) - 1

def Fits (v : FixedInt) : Prop := v.least ≤ v.value ∧ v.value ≤ v.greatest

instance (v : FixedInt) : Decidable v.Fits := inferInstanceAs (Decidable (_ ∧ _))

/-- Values are compared as numbers: width, sign and byte order only say how they are stored. -/
def sameNumber (v w : FixedInt) : Bool := v.value == w.value

/-- A hash of the number alone, taken over its decimal digits so that it depends on all of them. -/
def numberHash (v : FixedInt) : UInt64 := hash (toString v.value)

end FixedInt

end Elf64
