import Elf64.Error

/-! Binding and type of a symbol, which share one byte: the binding is its high half and the
type its low half. -/

set_option autoImplicit false

namespace Elf64

/-- Where a symbol can be seen from, and which definition wins. -/
inductive SymbolBinding where
  | localOnly
  | global
  /-- Like `global`, with lower precedence. -/
  | weak
  | os (n : UInt8)
  | proc (n : UInt8)
  | unknown (n : UInt8)
  deriving DecidableEq, Repr

namespace SymbolBinding

def ofRaw (n : UInt8) : SymbolBinding :=
  match n with
  | 0 => localOnly
  | 1 => global
  | 2 => weak
  | n => if n < 10 then unknown n else if n < 13 then os n else if n < 16 then proc n else unknown n

def raw : SymbolBinding → UInt8
  | localOnly => 0
  | global => 1
  | weak => 2
  | os n | proc n | unknown n => n

def label : SymbolBinding → Label
  | localOnly => ⟨"Local", none⟩
  | global => ⟨"Global", none⟩
  | weak => ⟨"Weak", none⟩
  | os n => ⟨"Os", some n.toNat⟩
  | proc n => ⟨"Proc", some n.toNat⟩
  | unknown n => ⟨"Unknown", some n.toNat⟩

@[simp] theorem raw_ofRaw (n : UInt8) : (ofRaw n).raw = n := by
  unfold ofRaw
  repeat' split
  all_goals rfl

/-- Refuses a binding that does not fit its half of the byte, or whose number stands for another
one. -/
def check (binding : SymbolBinding) : Except Error Unit :=
  if binding.raw < 16 ∧ ofRaw binding.raw = binding then .ok ()
  else .error (.misnamedCode .symbolBinding binding.label)

end SymbolBinding

/-- What kind of entity a symbol names. -/
inductive SymbolType where
  | noType
  | object
  | func
  | sectionName
  | file
  | os (n : UInt8)
  | proc (n : UInt8)
  | unknown (n : UInt8)
  deriving DecidableEq, Repr

namespace SymbolType

def ofRaw (n : UInt8) : SymbolType :=
  match n with
  | 0 => noType
  | 1 => object
  | 2 => func
  | 3 => sectionName
  | 4 => file
  | n => if n < 10 then unknown n else if n < 13 then os n else if n < 16 then proc n else unknown n

def raw : SymbolType → UInt8
  | noType => 0
  | object => 1
  | func => 2
  | sectionName => 3
  | file => 4
  | os n | proc n | unknown n => n

def label : SymbolType → Label
  | noType => ⟨"NoType", none⟩
  | object => ⟨"Object", none⟩
  | func => ⟨"Func", none⟩
  | sectionName => ⟨"Section", none⟩
  | file => ⟨"File", none⟩
  | os n => ⟨"Os", some n.toNat⟩
  | proc n => ⟨"Proc", some n.toNat⟩
  | unknown n => ⟨"Unknown", some n.toNat⟩

@[simp] theorem raw_ofRaw (n : UInt8) : (ofRaw n).raw = n := by
  unfold ofRaw
  repeat' split
  all_goals rfl

/-- Refuses a type that does not fit its half of the byte, or whose number stands for another
one. -/
def check (type : SymbolType) : Except Error Unit :=
  if type.raw < 16 ∧ ofRaw type.raw = type then .ok ()
  else .error (.misnamedCode .symbolType type.label)

end SymbolType

/-- The byte that holds a binding and a type. Only the low half of each is kept. -/
def packInfo (binding type : UInt8) : UInt8 := (binding <<< 4) ||| (type &&& 0xf)

def infoBinding (info : UInt8) : UInt8 := info >>> 4

def infoType (info : UInt8) : UInt8 := info &&& 0xf

end Elf64
