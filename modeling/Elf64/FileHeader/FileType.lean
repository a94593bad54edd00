import Elf64.Error

/-! What kind of file an image is. -/

set_option autoImplicit false

namespace Elf64

inductive FileType where
  | none
  | relocatable
  | executable
  | sharedObject
  | core
  | processor (n : UInt16)
  | unknown (n : UInt16)
  deriving DecidableEq, Repr

namespace FileType

/-- The first number that is left to processors. -/
def processorLow : UInt16 := 0xff00

def ofRaw (n : UInt16) : FileType :=
  match n with
  | 0 => none
  | 1 => relocatable
  | 2 => executable
  | 3 => sharedObject
  | 4 => core
  | n => if processorLow ≤ n then processor n else unknown n

def raw : FileType → UInt16
  | none => 0
  | relocatable => 1
  | executable => 2
  | sharedObject => 3
  | core => 4
  | processor n | unknown n => n

def label : FileType → Label
  | none => ⟨"None", .none⟩
  | relocatable => ⟨"Relocatable", .none⟩
  | executable => ⟨"Executable", .none⟩
  | sharedObject => ⟨"SharedObject", .none⟩
  | core => ⟨"Core", .none⟩
  | processor n => ⟨"Processor", some n.toNat⟩
  | unknown n => ⟨"Unknown", some n.toNat⟩

@[simp] theorem raw_ofRaw (n : UInt16) : (ofRaw n).raw = n := by
  unfold ofRaw
  repeat' split
  all_goals rfl

/-- Refuses a code whose number stands for another one. -/
def check (type : FileType) : Except Error Unit :=
  if ofRaw type.raw = type then .ok () else .error (.misnamedCode .fileType type.label)

end FileType

end Elf64
