/-! What can go wrong outside the program while bytes are written. -/

set_option autoImplicit false

namespace Elf64.Output

inductive Fault where
  | full
  /-- A write took none of the bytes that it was offered. -/
  | stalled
  | flush
  | missingDirectory
  | isDirectory
  | other (text : String)
  deriving DecidableEq, Repr

def Fault.text : Fault → String
  | full => "sink full"
  | stalled => "failed to write whole buffer"
  | flush => "flush failed"
  | missingDirectory => "No such file or directory (os error 2)"
  | isDirectory => "Is a directory (os error 21)"
  | other text => text

end Elf64.Output
