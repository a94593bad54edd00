import Elf64.Outcome
import Elf64.Record

/-! String tables: texts stored one after the other, each closed by a zero byte, and named by the
offset of their first byte.

Every table starts with the empty text, which is implicit here. A text that is added again gets
an entry of its own. -/

set_option autoImplicit false

namespace Elf64

structure StringTable where
  /-- The texts after the first one, in the order of their offsets. -/
  added : Array String := #[]
  /-- The number of bytes of the encoded table, which is the offset of the next text. -/
  size : Nat := 1
  deriving DecidableEq, Repr

namespace StringTable

def texts (table : StringTable) : List String := "" :: table.added.toList

/-- The number of entries, the first one included. -/
def count (table : StringTable) : Nat := table.added.size + 1

/-- The bytes that a text takes up, with the zero that closes it. -/
def room (text : String) : Nat := text.utf8ByteSize + 1

/-- Texts with their offsets, if the first one is stored at `offset`. -/
def entriesFrom : Nat → List String → List (Nat × String)
  | _, [] => []
  | offset, text :: rest => (offset, text) :: entriesFrom (offset + room text) rest

def entries (table : StringTable) : List (Nat × String) := entriesFrom 0 table.texts

/-- Refuses a text that contains a zero byte, and any text once offsets no longer fit a word. -/
def check (table : StringTable) (text : String) : Except Error Unit :=
  if 0 ∈ utf8 text then .error (.interiorNul text) else (FixedInt.count table.size .word).check

/-- Stores a text at the end. -/
def push (table : StringTable) (text : String) : StringTable :=
  match table with
  | ⟨added, size⟩ => ⟨added.push text, size + room text⟩

/-- Stores a text that passes the check, and gives its offset. -/
def add (table : StringTable) (text : String) : Outcome StringTable Nat :=
  match table.check text with
  | .error e => (.error e, table)
  | .ok () => (.ok table.size, table.push text)

/-- The text that starts at an offset. An offset inside a text has none. -/
def get? (table : StringTable) (offset : Nat) : Option String :=
  (table.entries.find? fun entry => entry.1 == offset).map (·.2)

/-- The offset of the first entry that holds a text. -/
def find? (table : StringTable) (text : String) : Option Nat :=
  (table.entries.find? fun entry => entry.2 == text).map (·.1)

/-- A record for each text: its bytes and the zero that closes it. -/
def records (table : StringTable) : List Record :=
  table.texts.map fun text => [.bytes (utf8 text), .number (.byte 0)]

def encode (table : StringTable) : Bytes := table.texts.flatMap fun text => utf8 text ++ [0]

end StringTable

end Elf64
