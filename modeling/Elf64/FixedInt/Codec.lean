import Elf64.Error

/-! Writing an integer into its field and reading it back. -/

set_option autoImplicit false

namespace Elf64.FixedInt

/-- Refuses a value that its field cannot hold. -/
def check (v : FixedInt) : Except Error Unit :=
  if v.Fits then .ok () else .error (.outOfRange v)

/-- The bytes of the field, which hold the value modulo the number of its patterns: a negative
value is stored as its two's complement. Reducing it stands for the cast to an integer type of the width,
which is taken to keep the low bits of the value, that is the value modulo two to the number of these bits,
whether the type has a sign or not. -/
def bytes (v : FixedInt) : Bytes :=
  v.order.write v.width.bytes (v.value % v.width.patterns).toNat

def encode (v : FixedInt) : Except Error Bytes := do
  v.check
  return v.bytes

/-- The value that a bit pattern stands for: in a signed field the upper half of the patterns
stands for the negative values. This stands for reading the pattern as an integer of the signed type of the
width, which has the same bits in two's complement, and for the cast to a wider type, which is taken to
keep the value. -/
def ofPattern (n : Nat) (width : Width) (signed : Bool) : Int :=
  if signed then (n : Int).bmod width.patterns else n

/-- Reads a field, which must have exactly the bytes of its width. -/
def decode (bytes : Bytes) (width : Width) (signed : Bool) (order : ByteOrder) :
    Except Error FixedInt :=
  if bytes.length = width.bytes then
    .ok ⟨ofPattern (order.read bytes) width signed, width, signed, order⟩
  else
    .error (.wrongLength width.bytes bytes.length)

@[simp] theorem length_bytes (v : FixedInt) : v.bytes.length = v.width.bytes := by
  simp [bytes]

end Elf64.FixedInt
