import Elf64.Record
import Elf64.Section.Flags
import Elf64.Section.Type

/-! Headers of sections. -/

set_option autoImplicit false

namespace Elf64

structure SectionHeader where
  /-- Where the string table has the section's name. -/
  name : UInt32 := 0
  type : SectionType
  flags : SectionFlags := {}
  /-- Where the section lies in memory, or zero. -/
  addr : UInt64 := 0
  offset : UInt64 := 0
  size : UInt64 := 0
  /-- The index of a section that this one needs, such as the string table of a symbol table. -/
  link : UInt32 := 0
  info : UInt32 := 0
  /-- Zero or one for no constraint, otherwise a power of two that divides the address. -/
  addralign : UInt64 := 0
  /-- The size of one record in a section that holds a table, otherwise zero. -/
  entsize : UInt64 := 0
  deriving DecidableEq, Repr

namespace SectionHeader

def recordSize : Nat := 64

/-- The header at index zero of every section table. -/
def null : SectionHeader := { type := .null }

def record (header : SectionHeader) : Record := [
  .number (.word header.name),
  .number (.word header.type.raw),
  .number (.xword header.flags.bits),
  .number (.xword header.addr),
  .number (.xword header.offset),
  .number (.xword header.size),
  .number (.word header.link),
  .number (.word header.info),
  .number (.xword header.addralign),
  .number (.xword header.entsize)]

def encode (order : ByteOrder) (header : SectionHeader) : Bytes := header.record.encode order

/-- Takes a header off the front of a section table. -/
def take? (order : ByteOrder) (bytes : Bytes) : Option (SectionHeader × Bytes) := do
  let (name, rest) ← order.take? 4 bytes
  let (type, rest) ← order.take? 4 rest
  let (flags, rest) ← order.take? 8 rest
  let (addr, rest) ← order.take? 8 rest
  let (offset, rest) ← order.take? 8 rest
  let (size, rest) ← order.take? 8 rest
  let (link, rest) ← order.take? 4 rest
  let (info, rest) ← order.take? 4 rest
  let (addralign, rest) ← order.take? 8 rest
  let (entsize, rest) ← order.take? 8 rest
  let header : SectionHeader := {
    name := .ofNat name
    type := .ofRaw (.ofNat type)
    flags := ⟨.ofNat flags⟩
    addr := .ofNat addr
    offset := .ofNat offset
    size := .ofNat size
    link := .ofNat link
    info := .ofNat info
    addralign := .ofNat addralign
    entsize := .ofNat entsize }
  return (header, rest)

/-- Refuses an alignment that is no power of two, then an address that it does not divide. -/
def checkAlignment (header : SectionHeader) : Except Error Unit :=
  let address := header.addr.toNat
  let alignment := header.addralign.toNat
  if alignment ≤ 1 then .ok ()
  else if ¬ alignment.isPowerOfTwo then .error (.alignmentNotPowerOfTwo alignment)
  else if ¬ alignment ∣ address then .error (.misalignedAddress address alignment)
  else .ok ()

def validate (header : SectionHeader) : Except Error Unit := do
  header.type.check
  header.checkAlignment

def occupiesFile (header : SectionHeader) : Bool := header.type.occupiesFile

/-- New values for some of the fields. -/
structure Patch where
  name : Option UInt32 := none
  type : Option SectionType := none
  flags : Option SectionFlags := none
  addr : Option UInt64 := none
  offset : Option UInt64 := none
  size : Option UInt64 := none
  link : Option UInt32 := none
  info : Option UInt32 := none
  addralign : Option UInt64 := none
  entsize : Option UInt64 := none
  deriving DecidableEq, Repr

def Patch.apply (patch : Patch) (header : SectionHeader) : SectionHeader where
  name := patch.name.getD header.name
  type := patch.type.getD header.type
  flags := patch.flags.getD header.flags
  addr := patch.addr.getD header.addr
  offset := patch.offset.getD header.offset
  size := patch.size.getD header.size
  link := patch.link.getD header.link
  info := patch.info.getD header.info
  addralign := patch.addralign.getD header.addralign
  entsize := patch.entsize.getD header.entsize

end SectionHeader

end Elf64
