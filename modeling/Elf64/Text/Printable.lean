import Elf64.Text.GraphemeExtend
import Elf64.Text.Invisible

/-! Which characters a quoted text shows as themselves. -/

set_option autoImplicit false

namespace Elf64.Text

/-- A character that can be seen and stands on its own. -/
def isPrintable (c : Char) : Bool :=
  !graphemeExtend.contains c.toNat && !invisible.contains c.toNat

end Elf64.Text
