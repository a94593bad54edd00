import Elf64.Record
import Elf64.Symbol.Info
import Elf64.Symbol.SectionRef

/-! Symbols. -/

set_option autoImplicit false

namespace Elf64

structure Symbol where
  /-- Where the string table has the symbol's name, or zero. -/
  name : UInt32 := 0
  /-- Binding and type, see `packInfo`. -/
  info : UInt8 := 0
  definedIn : SectionRef := .undefined
  value : UInt64 := 0
  size : UInt64 := 0
  deriving DecidableEq, Repr

namespace Symbol

def recordSize : Nat := 24

/-- A byte without a meaning that every symbol has. -/
def other : UInt8 := 0

def binding (symbol : Symbol) : SymbolBinding := .ofRaw (infoBinding symbol.info)

def type (symbol : Symbol) : SymbolType := .ofRaw (infoType symbol.info)

/-- Replaces the binding and keeps the type. -/
def setBinding (symbol : Symbol) (binding : SymbolBinding) : Except Error Symbol := do
  binding.check
  return { symbol with info := packInfo binding.raw (infoType symbol.info) }

/-- Replaces the type and keeps the binding. -/
def setType (symbol : Symbol) (type : SymbolType) : Except Error Symbol := do
  type.check
  return { symbol with info := packInfo (infoBinding symbol.info) type.raw }

def validate (symbol : Symbol) : Except Error Unit := symbol.definedIn.check

def record (symbol : Symbol) : Record := [
  .number (.word symbol.name),
  .number (.byte symbol.info),
  .number (.byte other),
  .number (.half symbol.definedIn.raw),
  .number (.xword symbol.value),
  .number (.xword symbol.size)]

def encode (order : ByteOrder) (symbol : Symbol) : Bytes := symbol.record.encode order

/-- Takes a symbol off the front of a symbol table. -/
def take? (order : ByteOrder) (bytes : Bytes) : Option (Symbol × Bytes) := do
  let (name, rest) ← order.take? 4 bytes
  let (info, rest) ← order.take? 1 rest
  let (_, rest) ← (order.take? 1 rest).filter fun found => found.1 == other.toNat
  let (definedIn, rest) ← order.take? 2 rest
  let (value, rest) ← order.take? 8 rest
  let (size, rest) ← order.take? 8 rest
  let symbol : Symbol := {
    name := .ofNat name
    info := .ofNat info
    definedIn := .ofRaw (.ofNat definedIn)
    value := .ofNat value
    size := .ofNat size }
  return (symbol, rest)

end Symbol

end Elf64
