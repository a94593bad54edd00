/-! Byte strings, and natural numbers written as a fixed count of bytes.

Writing keeps the low bytes of a number, so that reading them back gives the number modulo the count
of such byte strings (`littleValue_little`); every byte string is the writing of its own value
(`little_littleValue`). -/

set_option autoImplicit false

namespace Elf64

abbrev Bytes := List UInt8

/-- The order in which the bytes of a number are stored. -/
inductive ByteOrder where
  | little
  | big
  deriving DecidableEq, Repr

/-- How many byte strings of `count` bytes there are. -/
def patterns : Nat → Nat
  | 0 => 1
  | count + 1 => 256 * patterns count

/-- The low `count` bytes of a number, least significant first. -/
def little : Nat → Nat → Bytes
  | 0, _ => []
  | count + 1, n => UInt8.ofNat (n % 256) :: little count (n / 256)

/-- The number whose bytes are given least significant first. -/
def littleValue : Bytes → Nat
  | [] => 0
  | byte :: rest => byte.toNat + 256 * littleValue rest

@[simp] theorem length_little (count n : Nat) : (little count n).length = count := by
  induction count generalizing n with
  | zero => rfl
  | succ count ih => simp [little, ih]

theorem littleValue_lt (bytes : Bytes) : littleValue bytes < patterns bytes.length := by
  induction bytes with
  | nil => exact Nat.one_pos
  | cons byte rest ih =>
    have bound := byte.toNat_lt
    simp only [littleValue, List.length_cons, patterns]
    omega

theorem littleValue_little (count n : Nat) : littleValue (little count n) = n % patterns count := by
  induction count generalizing n with
  | zero => simp [little, littleValue, patterns, Nat.mod_one]
  | succ count ih =>
    rw [little, littleValue, ih, patterns, Nat.mod_mul]
    simp

theorem little_littleValue (bytes : Bytes) : little bytes.length (littleValue bytes) = bytes := by
  induction bytes with
  | nil => rfl
  | cons byte rest ih =>
    have bound := byte.toNat_lt
    have low : (byte.toNat + 256 * littleValue rest) % 256 = byte.toNat := by omega
    have high : (byte.toNat + 256 * littleValue rest) / 256 = littleValue rest := by omega
    simp [little, littleValue, low, high, ih]

namespace ByteOrder

/-- The low `count` bytes of a number. This stands for the routines of the `byteorder` library that write an
integer of this width. They are taken to do what is documented of them: to put out `count` bytes, no more and
no fewer, the least significant one first (`little`) or last (`big`). -/
def write (order : ByteOrder) (count n : Nat) : Bytes :=
  match order with
  | .little => Elf64.little count n
  | .big => (Elf64.little count n).reverse

/-- The number that the bytes make up. This stands for the routines of the same library that read an unsigned
integer. They are taken to read each byte in the place where it is written, so that they invert the ones
that write (`read_write`, `write_read`). -/
def read (order : ByteOrder) (bytes : Bytes) : Nat :=
  match order with
  | .little => littleValue bytes
  | .big => littleValue bytes.reverse

@[simp] theorem length_write (order : ByteOrder) (count n : Nat) :
    (order.write count n).length = count := by
  cases order <;> simp [write]

theorem read_lt (order : ByteOrder) (bytes : Bytes) : order.read bytes < patterns bytes.length := by
  cases order with
  | little => exact littleValue_lt bytes
  | big => simpa [read] using littleValue_lt bytes.reverse

theorem read_write (order : ByteOrder) (count n : Nat) :
    order.read (order.write count n) = n % patterns count := by
  cases order <;> simp [read, write, littleValue_little]

theorem write_read (order : ByteOrder) (bytes : Bytes) :
    order.write bytes.length (order.read bytes) = bytes := by
  cases order with
  | little => exact little_littleValue bytes
  | big => simpa [read, write] using congrArg List.reverse (little_littleValue bytes.reverse)

/-- The number in the `count` bytes that start at `offset`. -/
def readAt (order : ByteOrder) (bytes : Bytes) (offset count : Nat) : Nat :=
  order.read ((bytes.drop offset).take count)

end ByteOrder

/-- The bytes of a text in UTF-8. -/
def utf8 (text : String) : Bytes := text.toByteArray.data.toList

end Elf64
