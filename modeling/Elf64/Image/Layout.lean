import Elf64.Section.Table

/-! Where the contents of sections lie in the file: one after the other in the order of their
indexes, each at the next multiple of its alignment. -/

set_option autoImplicit false

namespace Elf64

/-- Offsets in a file are below this bound. -/
def offsetBound : Nat := 0x10000000000000000

/-- Bytes in memory are counted below this bound. -/
def memoryBound : Nat := 0x8000000000000000

/-- The least multiple of an alignment that is not below a position. Alignments of zero and one do
not constrain it. -/
def alignUp (position alignment : Nat) : Nat :=
  if alignment ≤ 1 then position else (position + (alignment - 1)) / alignment * alignment

/-- Gives a section its offset, and its size if it occupies the file. The answer is the end of the
section, which is where the cursor goes. -/
def SectionHeader.place (header : SectionHeader) (size cursor : Nat) : Outcome SectionHeader Nat :=
  let alignment := header.addralign.toNat
  if 1 < alignment ∧ offsetBound ≤ cursor + (alignment - 1) then
    (.error (.tooLarge cursor), header)
  else
    let offset := alignUp cursor alignment
    let header := { header with offset := .ofNat offset }
    if header.occupiesFile then
      let header := { header with size := .ofNat size }
      if offset + size < offsetBound then (.ok (offset + size), header)
      else (.error (.tooLarge offset), header)
    else
      (.ok cursor, header)

/-- Places sections one after the other behind those that are `placed`. From the first failure on,
the rest stays as it is. -/
def placeAll (sizeOf : Section → Nat) (placed : Array Section) (cursor : Nat) :
    List Section → Outcome (Array Section) Nat
  | [] => (.ok cursor, placed)
  | entry :: rest =>
    match entry.header.place (sizeOf entry) cursor with
    | (.ok cursor, header) => placeAll sizeOf (placed.push { entry with header }) cursor rest
    | (.error e, header) => (.error e, (placed.push { entry with header }).appendList rest)

end Elf64
