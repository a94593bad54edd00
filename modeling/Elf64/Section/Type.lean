import Elf64.Error

/-! What the contents of a section mean. -/

set_option autoImplicit false

namespace Elf64

inductive SectionType where
  /-- An inactive header without a section. -/
  | null
  /-- Information defined by the program. -/
  | progBits
  | symTab
  | strTab
  /-- Relocations with explicit addends. -/
  | rela
  | hash
  | dynamic
  | note
  /-- Like `progBits`, with no bytes in the file. -/
  | noBits
  /-- Relocations without explicit addends. -/
  | rel
  | shLib
  | dynSym
  | os (n : UInt32)
  | proc (n : UInt32)
  | user (n : UInt32)
  | unknown (n : UInt32)
  deriving DecidableEq, Repr

namespace SectionType

/-- The first number left to operating systems; processors and users follow. -/
def osLow : UInt32 := 0x60000000

def procLow : UInt32 := 0x70000000

def userLow : UInt32 := 0x80000000

/-- The last number left to users. -/
def userHigh : UInt32 := 0x8fffffff

def ofRaw (n : UInt32) : SectionType :=
  match n with
  | 0 => null
  | 1 => progBits
  | 2 => symTab
  | 3 => strTab
  | 4 => rela
  | 5 => hash
  | 6 => dynamic
  | 7 => note
  | 8 => noBits
  | 9 => rel
  | 10 => shLib
  | 11 => dynSym
  | n =>
    if n < osLow then unknown n
    else if n < procLow then os n
    else if n < userLow then proc n
    else if n ≤ userHigh then user n
    else unknown n

def raw : SectionType → UInt32
  | null => 0
  | progBits => 1
  | symTab => 2
  | strTab => 3
  | rela => 4
  | hash => 5
  | dynamic => 6
  | note => 7
  | noBits => 8
  | rel => 9
  | shLib => 10
  | dynSym => 11
  | os n | proc n | user n | unknown n => n

def label : SectionType → Label
  | null => ⟨"Null", none⟩
  | progBits => ⟨"ProgBits", none⟩
  | symTab => ⟨"SymTab", none⟩
  | strTab => ⟨"StrTab", none⟩
  | rela => ⟨"Rela", none⟩
  | hash => ⟨"Hash", none⟩
  | dynamic => ⟨"Dynamic", none⟩
  | note => ⟨"Note", none⟩
  | noBits => ⟨"NoBits", none⟩
  | rel => ⟨"Rel", none⟩
  | shLib => ⟨"ShLib", none⟩
  | dynSym => ⟨"DynSym", none⟩
  | os n => ⟨"Os", some n.toNat⟩
  | proc n => ⟨"Proc", some n.toNat⟩
  | user n => ⟨"User", some n.toNat⟩
  | unknown n => ⟨"Unknown", some n.toNat⟩

@[simp] theorem raw_ofRaw (n : UInt32) : (ofRaw n).raw = n := by
  unfold ofRaw
  repeat' split
  all_goals rfl

/-- Refuses a code whose number stands for another one. -/
def check (type : SectionType) : Except Error Unit :=
  if ofRaw type.raw = type then .ok () else .error (.misnamedCode .sectionType type.label)

/-- Whether the contents of a section of this type take up bytes in the file. -/
def occupiesFile : SectionType → Bool
  | null | noBits => false
  | _ => true

end SectionType

end Elf64
