import Std.Data.TreeMap
import Elf64.Outcome
import Elf64.Section.Header

/-! The section table: named sections in the order in which they were added.

Other records refer to sections by their index. Index zero belongs to a null header without a
name, which is implicit here; names are unique. -/

set_option autoImplicit false

namespace Elf64

structure Section where
  name : String
  header : SectionHeader
  /-- The bytes given for the section, if any. -/
  contents : Bytes := []
  deriving DecidableEq, Repr

structure SectionTable where
  /-- The sections from index one on. -/
  added : Array Section := #[]
  /-- The index of each name. -/
  index : Std.TreeMap String Nat := {}
  /-- Sections whose `link` field is to hold the index of a named section, at most one entry for
  each, the latest last. -/
  links : List (Nat × String) := []

namespace SectionTable

/-- The number of headers, the null one included. -/
def size (table : SectionTable) : Nat := table.added.size + 1

def headers (table : SectionTable) : List SectionHeader :=
  SectionHeader.null :: table.added.toList.map Section.header

def indexOf? (table : SectionTable) (name : String) : Option Nat := table.index[name]?

def require (table : SectionTable) (name : String) : Except Error Nat :=
  match table.indexOf? name with
  | some i => .ok i
  | none => .error (.unknownSection name)

def nameOf? (table : SectionTable) : Nat → Option String
  | 0 => none
  | i + 1 => table.added[i]?.map Section.name

def get? (table : SectionTable) : Nat → Option SectionHeader
  | 0 => some .null
  | i + 1 => table.added[i]?.map Section.header

def find? (table : SectionTable) (name : String) : Option SectionHeader :=
  (table.indexOf? name).bind table.get?

/-- Refuses a name that is in use, then a header that is not valid. -/
def check (table : SectionTable) (name : String) (header : SectionHeader) : Except Error Unit :=
  if table.index.contains name then .error (.duplicateSection name) else header.validate

/-- Puts a section at the end. -/
def push (table : SectionTable) (entry : Section) : SectionTable :=
  let i := table.size
  match table with
  | ⟨added, index, links⟩ => ⟨added.push entry, index.insert entry.name i, links⟩

/-- Stores a section that passes the check, and gives its index. -/
def add (table : SectionTable) (entry : Section) : Outcome SectionTable Nat :=
  match table.check entry.name entry.header with
  | .error e => (.error e, table)
  | .ok () => (.ok table.size, table.push entry)

/-- Changes the header at an index. The null header stays as it is. -/
def modify (table : SectionTable) (i : Nat) (f : SectionHeader → SectionHeader) : SectionTable :=
  match i with
  | 0 => table
  | i + 1 =>
    { table with
      added := table.added.modify i fun entry => { entry with header := f entry.header } }

/-- Checks every header, in the order of their indexes. -/
def validate (table : SectionTable) : Except Error Unit :=
  table.headers.forM SectionHeader.validate

/-- Records that the section `source` is linked to the one named `target`, which may be added
later. An older link of the same section is dropped. -/
def link (table : SectionTable) (source target : String) : Outcome SectionTable Unit :=
  Outcome.andThen (table.require source, table) fun i table =>
    (.ok (), { table with links := table.links.filter (·.1 ≠ i) ++ [(i, target)] })

/-- Stores the index of each target in the header that links to it, up to the first target that
does not exist. -/
def applyLinks : List (Nat × String) → SectionTable → Outcome SectionTable Unit
  | [], table => (.ok (), table)
  | (i, target) :: rest, table =>
    match table.indexOf? target with
    | none => (.error (.unresolvedLink target), table)
    | some j => applyLinks rest (table.modify i fun header => { header with link := .ofNat j })

def resolveLinks (table : SectionTable) : Outcome SectionTable Unit := applyLinks table.links table

/-- The number of bytes of the encoded table. -/
def encodedSize (table : SectionTable) : Nat := table.size * SectionHeader.recordSize

def records (table : SectionTable) : List Record := table.headers.map SectionHeader.record

def encode (order : ByteOrder) (table : SectionTable) : Bytes :=
  table.headers.flatMap (SectionHeader.encode order)

end SectionTable

end Elf64
