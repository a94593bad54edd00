/-! Numbers in base sixteen. -/

set_option autoImplicit false

namespace Elf64.Text

/-- The digits of a number in base sixteen, lower case, with no leading zeros. -/
def hexDigits (n : Nat) : String := String.ofList (Nat.toDigits 16 n)

def hex (n : Nat) : String := "0x" ++ hexDigits n

end Elf64.Text
