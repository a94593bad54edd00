/-! The names under which codes are shown. -/

set_option autoImplicit false

namespace Elf64

/-- A code's name, with its number where the name alone does not determine it. -/
structure Label where
  name : String
  number : Option Nat := none
  deriving DecidableEq, Repr

def Label.text (label : Label) : String :=
  match label.number with
  | none => label.name
  | some n => label.name ++ "(" ++ toString n ++ ")"

end Elf64
