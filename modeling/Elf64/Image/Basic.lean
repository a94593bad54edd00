import Elf64.FileHeader.Basic
import Elf64.Section.Table
import Elf64.StringTable
import Elf64.Symbol.Table

/-! Images: files under construction.

Every image has a symbol table section and a string table section, at the first two indexes after
the null header. The string table holds the names of sections and symbols. -/

set_option autoImplicit false

namespace Elf64

/-- Settings for the file header of a new image. -/
structure Config where
  fileType : FileType := .sharedObject
  machine : Machine := .x86_64
  osAbi : OsAbi := .sysV
  entry : UInt64 := 0
  flags : UInt32 := 0
  deriving DecidableEq, Repr

/-- The file header of a new image. -/
def Config.header (config : Config) : FileHeader where
  fileType := config.fileType
  machine := config.machine
  osAbi := config.osAbi.raw
  entry := config.entry
  flags := config.flags

structure Image where
  header : FileHeader
  sections : SectionTable := {}
  strings : StringTable := {}
  symbols : SymbolTable := {}
  /-- The size of the file, while the headers describe the image as it is. -/
  finalSize : Option Nat := none

def symtabName : String := ".symtab"

def strtabName : String := ".strtab"

/-- The header that the symbol table section starts with. -/
def symtabHeader : SectionHeader :=
  { type := .symTab, addralign := 8, entsize := .ofNat Symbol.recordSize }

def strtabHeader : SectionHeader := { type := .strTab, addralign := 1 }

namespace Image

def isFinalized (image : Image) : Bool := image.finalSize.isSome

/-- Marks the headers as out of date. -/
def reopen (image : Image) : Image := { image with finalSize := none }

/-- Adds a section and its name without a check. -/
def pushSection (image : Image) (name : String) (header : SectionHeader) (contents : Bytes) :
    Image :=
  match image with
  | ⟨fileHeader, sections, strings, symbols, _⟩ =>
    let header := { header with name := .ofNat strings.size }
    ⟨fileHeader, sections.push ⟨name, header, contents⟩, strings.push name, symbols, none⟩

/-- Adds a symbol, and its name if it has one, without a check. -/
def pushSymbol (image : Image) (name : String) (symbol : Symbol) : Image :=
  match image with
  | ⟨fileHeader, sections, strings, symbols, _⟩ =>
    if name = "" then ⟨fileHeader, sections, strings, symbols.push name symbol, none⟩
    else
      let symbol := { symbol with name := .ofNat strings.size }
      ⟨fileHeader, sections, strings.push name, symbols.push name symbol, none⟩

/-- A new image with its two tables, the symbol table linked to the string table. Nothing is checked here:
the checks would pass (`Edit.applyAll_empty`). -/
def ofConfig (config : Config) : Image :=
  let image : Image := { header := config.header, sections := { links := [(1, strtabName)] } }
  (image.pushSection symtabName symtabHeader []).pushSection strtabName strtabHeader []

/-- The bytes that the file has for a section. -/
def contents (image : Image) (entry : Section) : Bytes :=
  if entry.name = symtabName then image.symbols.encode .little
  else if entry.name = strtabName then image.strings.encode
  else entry.contents

def contentsSize (image : Image) (entry : Section) : Nat :=
  if entry.name = symtabName then image.symbols.encodedSize
  else if entry.name = strtabName then image.strings.size
  else entry.contents.length

end Image

end Elf64
