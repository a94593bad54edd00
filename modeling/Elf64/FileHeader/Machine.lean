import Elf64.Error

/-! The processor architecture that an image is for. -/

set_option autoImplicit false

namespace Elf64

inductive Machine where
  | none
  | m32
  | sparc
  | i386
  | m68k
  | m88k
  | i860
  | mips
  | x86_64
  | unknown (n : UInt16)
  deriving DecidableEq, Repr

namespace Machine

def ofRaw (n : UInt16) : Machine :=
  match n with
  | 0 => none
  | 1 => m32
  | 2 => sparc
  | 3 => i386
  | 4 => m68k
  | 5 => m88k
  | 7 => i860
  | 8 => mips
  | 0x3e => x86_64
  | n => unknown n

def raw : Machine → UInt16
  | none => 0
  | m32 => 1
  | sparc => 2
  | i386 => 3
  | m68k => 4
  | m88k => 5
  | i860 => 7
  | mips => 8
  | x86_64 => 0x3e
  | unknown n => n

def label : Machine → Label
  | none => ⟨"None", .none⟩
  | m32 => ⟨"M32", .none⟩
  | sparc => ⟨"Sparc", .none⟩
  | i386 => ⟨"I386", .none⟩
  | m68k => ⟨"M68k", .none⟩
  | m88k => ⟨"M88k", .none⟩
  | i860 => ⟨"I860", .none⟩
  | mips => ⟨"Mips", .none⟩
  | x86_64 => ⟨"X86_64", .none⟩
  | unknown n => ⟨"Unknown", some n.toNat⟩

@[simp] theorem raw_ofRaw (n : UInt16) : (ofRaw n).raw = n := by
  unfold ofRaw
  split <;> rfl

/-- Refuses an unknown machine whose number is that of a known one. -/
def check (machine : Machine) : Except Error Unit :=
  if ofRaw machine.raw = machine then .ok () else .error (.misnamedCode .machine machine.label)

end Machine

end Elf64
