import Std.Data.TreeMap
import Elf64.Outcome
import Elf64.Symbol.Basic

/-! The symbol table: symbols in the order in which they were added, local ones first.

Index zero belongs to a reserved symbol, all of whose fields are zero; it is implicit here.
Names are unique, and symbols without a name are not looked up. -/

set_option autoImplicit false

namespace Elf64

structure SymbolTable where
  /-- The symbols from index one on. -/
  added : Array Symbol := #[]
  /-- The index of each name. -/
  index : Std.TreeMap String Nat := {}
  /-- How many symbols at the start of the table are local, the reserved one included. -/
  locals : Nat := 1

namespace SymbolTable

/-- The number of symbols, the reserved one included. -/
def size (table : SymbolTable) : Nat := table.added.size + 1

def symbols (table : SymbolTable) : List Symbol := {} :: table.added.toList

/-- The index of the first symbol that is not local, or of the next symbol if all are. -/
def firstGlobal (table : SymbolTable) : Nat := table.locals

def indexOf? (table : SymbolTable) (name : String) : Option Nat := table.index[name]?

def get? (table : SymbolTable) : Nat → Option Symbol
  | 0 => some {}
  | i + 1 => table.added[i]?

def find? (table : SymbolTable) (name : String) : Option Symbol :=
  (table.indexOf? name).bind table.get?

def checkName (table : SymbolTable) (name : String) : Except Error Unit :=
  if name ≠ "" ∧ table.index.contains name then .error (.duplicateSymbol name) else .ok ()

/-- Refuses a local symbol after one that is not local. -/
def checkOrder (table : SymbolTable) (name : String) (symbol : Symbol) : Except Error Unit :=
  if symbol.binding = .localOnly ∧ table.locals < table.size then .error (.misorderedSymbol name)
  else .ok ()

/-- Refuses a name that is in use, then a section reference out of range, then a misplaced local
symbol. -/
def check (table : SymbolTable) (name : String) (symbol : Symbol) : Except Error Unit := do
  table.checkName name
  symbol.validate
  table.checkOrder name symbol

/-- Puts a symbol at the end. -/
def push (table : SymbolTable) (name : String) (symbol : Symbol) : SymbolTable :=
  let i := table.size
  match table with
  | ⟨added, index, locals⟩ =>
    let index := if name = "" then index else index.insert name i
    let locals := if symbol.binding = .localOnly then locals + 1 else locals
    ⟨added.push symbol, index, locals⟩

/-- Stores a symbol that passes the check, and gives its index. -/
def add (table : SymbolTable) (name : String) (symbol : Symbol) : Outcome SymbolTable Nat :=
  match table.check name symbol with
  | .error e => (.error e, table)
  | .ok () => (.ok table.size, table.push name symbol)

/-- The number of bytes of the encoded table. -/
def encodedSize (table : SymbolTable) : Nat := table.size * Symbol.recordSize

def records (table : SymbolTable) : List Record := table.symbols.map Symbol.record

def encode (order : ByteOrder) (table : SymbolTable) : Bytes :=
  table.symbols.flatMap (Symbol.encode order)

end SymbolTable

end Elf64
