/-! Sets of code points, as ranges in ascending order. -/

set_option autoImplicit false

namespace Elf64.Text

/-- First and last code points of ranges. -/
abbrev CodeRanges := List (Nat × Nat)

namespace CodeRanges

/-- Whether a code point lies in one of the ranges. The search ends at the first range that starts
behind it. -/
def contains : CodeRanges → Nat → Bool
  | [], _ => false
  | (first, last) :: rest, n => first ≤ n && (n ≤ last || contains rest n)

end CodeRanges

end Elf64.Text
