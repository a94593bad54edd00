import Elf64.Text.Hex
import Elf64.Text.Printable

/-! Texts between double quotes, as details of errors show them. -/

set_option autoImplicit false

namespace Elf64.Text

/-- A character inside quotes: six have a short escape, other unprintable ones are shown by
number, and a single quote stands for itself. -/
def escaped (c : Char) : String :=
  match c with
  | '\x00' => "\\0"
  | '\t' => "\\t"
  | '\r' => "\\r"
  | '\n' => "\\n"
  | '"' => "\\\""
  | '\\' => "\\\\"
  | c => if isPrintable c then c.toString else "\\u\x7b" ++ hexDigits c.toNat ++ "\x7d"

def quoted (text : String) : String := "\"" ++ String.join (text.toList.map escaped) ++ "\""

end Elf64.Text
