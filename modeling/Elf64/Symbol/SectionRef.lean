import Elf64.Error

/-! The section that a symbol is defined in, or what stands in its place. -/

set_option autoImplicit false

namespace Elf64

inductive SectionRef where
  | undefined
  /-- A value that relocation leaves alone. -/
  | absolute
  /-- A common block that is not allocated yet. -/
  | common
  | index (n : UInt16)
  | reserved (n : UInt16)
  deriving DecidableEq, Repr

namespace SectionRef

/-- The first number that is no index into the section table. -/
def reservedLow : UInt16 := 0xff00

def ofRaw (n : UInt16) : SectionRef :=
  match n with
  | 0 => undefined
  | 0xfff1 => absolute
  | 0xfff2 => common
  | n => if reservedLow ≤ n then reserved n else index n

def raw : SectionRef → UInt16
  | undefined => 0
  | absolute => 0xfff1
  | common => 0xfff2
  | index n | reserved n => n

def label : SectionRef → Label
  | undefined => ⟨"Undefined", none⟩
  | absolute => ⟨"Absolute", none⟩
  | common => ⟨"Common", none⟩
  | index n => ⟨"Index", some n.toNat⟩
  | reserved n => ⟨"Reserved", some n.toNat⟩

@[simp] theorem raw_ofRaw (n : UInt16) : (ofRaw n).raw = n := by
  unfold ofRaw
  repeat' split
  all_goals rfl

/-- Refuses a reference whose number stands for another one. -/
def check (place : SectionRef) : Except Error Unit :=
  if ofRaw place.raw = place then .ok () else .error (.misnamedCode .sectionRef place.label)

end SectionRef

end Elf64
