import Elf64.Label

/-! The operating system or binary interface that an image is for. -/

set_option autoImplicit false

namespace Elf64

inductive OsAbi where
  | sysV
  | hpUx
  | standalone
  | unknown (n : UInt8)
  deriving DecidableEq, Repr

namespace OsAbi

def ofRaw (n : UInt8) : OsAbi :=
  match n with
  | 0 => sysV
  | 1 => hpUx
  | 255 => standalone
  | n => unknown n

def raw : OsAbi → UInt8
  | sysV => 0
  | hpUx => 1
  | standalone => 255
  | unknown n => n

def label : OsAbi → Label
  | sysV => ⟨"SysV", none⟩
  | hpUx => ⟨"HpUx", none⟩
  | standalone => ⟨"Standalone", none⟩
  | unknown n => ⟨"Unknown", some n.toNat⟩

@[simp] theorem raw_ofRaw (n : UInt8) : (ofRaw n).raw = n := by
  unfold ofRaw
  split <;> rfl

end OsAbi

end Elf64
