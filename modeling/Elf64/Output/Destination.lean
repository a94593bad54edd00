import Elf64.Bytes
import Elf64.Output.Fault

/-! Where a file is to be created, and what is there before. -/

set_option autoImplicit false

namespace Elf64.Output

inductive Destination where
  | vacant
  | file (contents : Bytes)
  /-- The directory that is to hold the file does not exist. -/
  | orphaned
  | directory
  deriving DecidableEq, Repr

namespace Destination

/-- Creates the file, in place of one that is there. -/
def replace (destination : Destination) (bytes : Bytes) : Except Fault Unit × Destination :=
  match destination with
  | vacant | file _ => (.ok (), file bytes)
  | orphaned => (.error .missingDirectory, orphaned)
  | directory => (.error .isDirectory, directory)

def contents? : Destination → Option Bytes
  | file contents => some contents
  | _ => none

end Destination

end Elf64.Output
