import Elf64.FileHeader.FileType
import Elf64.FileHeader.Machine
import Elf64.FileHeader.OsAbi
import Elf64.Record

/-! The header at the start of a file.

Fields that never vary are not stored: the sizes of the records, and the program header table,
which is always absent. -/

set_option autoImplicit false

namespace Elf64

structure FileHeader where
  fileType : FileType := .sharedObject
  machine : Machine := .x86_64
  version : UInt32 := 1
  /-- The address at which the program starts, or zero. -/
  entry : UInt64 := 0
  flags : UInt32 := 0
  /-- The number of the operating system or binary interface. -/
  osAbi : UInt8 := 0
  abiVersion : UInt8 := 0
  sectionTableOffset : UInt64 := 0
  sectionCount : UInt16 := 0
  /-- Where the section table has the section that holds the names. -/
  nameTableIndex : UInt16 := 0
  deriving DecidableEq, Repr

namespace FileHeader

def recordSize : Nat := 64

def magic : Bytes := [0x7f, 0x45, 0x4c, 0x46]

def programTableOffset : UInt64 := 0

def programEntrySize : UInt16 := 0

def programCount : UInt16 := 0

/-- The size of the headers in the section table. -/
def sectionEntrySize : UInt16 := 64

/-- The bytes that identify a file: the magic number, 64-bit class, little-endian data, the
format's version, the binary interface and its version, and seven zeros. -/
def ident (header : FileHeader) : Bytes :=
  magic ++ [2, 1, 1, header.osAbi, header.abiVersion] ++ List.replicate 7 0

def record (header : FileHeader) : Record := [
  .bytes header.ident,
  .number (.half header.fileType.raw),
  .number (.half header.machine.raw),
  .number (.word header.version),
  .number (.xword header.entry),
  .number (.xword programTableOffset),
  .number (.xword header.sectionTableOffset),
  .number (.word header.flags),
  .number (.half (.ofNat recordSize)),
  .number (.half programEntrySize),
  .number (.half programCount),
  .number (.half sectionEntrySize),
  .number (.half header.sectionCount),
  .number (.half header.nameTableIndex)]

def encode (order : ByteOrder) (header : FileHeader) : Bytes := header.record.encode order

/-- Takes a header off the front of a file, without a look at the fields that never vary. -/
def take? (order : ByteOrder) (bytes : Bytes) : Option (FileHeader × Bytes) := do
  let (_, rest) ← order.take? 7 bytes
  let (osAbi, rest) ← order.take? 1 rest
  let (abiVersion, rest) ← order.take? 1 rest
  let (_, rest) ← order.take? 7 rest
  let (fileType, rest) ← order.take? 2 rest
  let (machine, rest) ← order.take? 2 rest
  let (version, rest) ← order.take? 4 rest
  let (entry, rest) ← order.take? 8 rest
  let (_, rest) ← order.take? 8 rest
  let (sectionTableOffset, rest) ← order.take? 8 rest
  let (flags, rest) ← order.take? 4 rest
  let (_, rest) ← order.take? 8 rest
  let (sectionCount, rest) ← order.take? 2 rest
  let (nameTableIndex, rest) ← order.take? 2 rest
  let header : FileHeader := {
    fileType := .ofRaw (.ofNat fileType)
    machine := .ofRaw (.ofNat machine)
    version := .ofNat version
    entry := .ofNat entry
    flags := .ofNat flags
    osAbi := .ofNat osAbi
    abiVersion := .ofNat abiVersion
    sectionTableOffset := .ofNat sectionTableOffset
    sectionCount := .ofNat sectionCount
    nameTableIndex := .ofNat nameTableIndex }
  return (header, rest)

/-- Records the final shape of the section table. Type and machine can be set to anything, so
they are checked here. -/
def close (header : FileHeader) (count index : Nat) : Except Error FileHeader := do
  header.fileType.check
  header.machine.check
  (FixedInt.count count .half).check
  (FixedInt.count index .half).check
  return { header with sectionCount := .ofNat count, nameTableIndex := .ofNat index }

/-- New values for some of the fields that can be set. -/
structure Patch where
  fileType : Option FileType := none
  machine : Option Machine := none
  version : Option UInt32 := none
  entry : Option UInt64 := none
  flags : Option UInt32 := none
  osAbi : Option OsAbi := none
  abiVersion : Option UInt8 := none
  sectionTableOffset : Option UInt64 := none
  deriving DecidableEq, Repr

def Patch.apply (patch : Patch) (header : FileHeader) : FileHeader :=
  { header with
    fileType := patch.fileType.getD header.fileType
    machine := patch.machine.getD header.machine
    version := patch.version.getD header.version
    entry := patch.entry.getD header.entry
    flags := patch.flags.getD header.flags
    osAbi := (patch.osAbi.map OsAbi.raw).getD header.osAbi
    abiVersion := patch.abiVersion.getD header.abiVersion
    sectionTableOffset := patch.sectionTableOffset.getD header.sectionTableOffset }

end FileHeader

end Elf64
