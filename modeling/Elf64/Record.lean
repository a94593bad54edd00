import Elf64.FixedInt.Codec

/-! Records of a fixed layout: fields one after the other, without gaps. -/

set_option autoImplicit false

namespace Elf64

inductive Field where
  | bytes (content : Bytes)
  | number (v : FixedInt)
  deriving DecidableEq, Repr

/-- A number takes the byte order of the record that it is part of. -/
def Field.encode (order : ByteOrder) : Field → Bytes
  | bytes content => content
  | number v => { v with order }.bytes

abbrev Record := List Field

def Record.encode (order : ByteOrder) (record : Record) : Bytes := record.flatMap (Field.encode order)

/-- Takes a number of `count` bytes off the front. -/
def ByteOrder.take? (order : ByteOrder) (count : Nat) (bytes : Bytes) : Option (Nat × Bytes) :=
  if count ≤ bytes.length then some (order.read (bytes.take count), bytes.drop count) else none

theorem ByteOrder.take?_append (order : ByteOrder) {front rest : Bytes} {count : Nat}
    (length : front.length = count) :
    order.take? count (front ++ rest) = some (order.read front, rest) := by
  subst length
  simp [take?]

end Elf64
