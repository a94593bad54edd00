import Elf64.Text.Hex

/-! Attributes of a section, one bit or mask each. Bits without a name are kept. -/

set_option autoImplicit false

namespace Elf64

structure SectionFlags where
  bits : UInt64 := 0
  deriving DecidableEq, Repr

namespace SectionFlags

/-- Writable while the program runs. -/
def write : SectionFlags := ⟨0x1⟩

/-- Occupies memory while the program runs. -/
def alloc : SectionFlags := ⟨0x2⟩

def execInstr : SectionFlags := ⟨0x4⟩

def maskOs : SectionFlags := ⟨0x0f000000⟩

def maskProc : SectionFlags := ⟨0xf0000000⟩

/-- The flags that have a name, in the order in which they are shown. -/
def named : List (String × SectionFlags) :=
  [("WRITE", write), ("ALLOC", alloc), ("EXECINSTR", execInstr), ("MASKOS", maskOs),
    ("MASKPROC", maskProc)]

def union (a b : SectionFlags) : SectionFlags := ⟨a.bits ||| b.bits⟩

def inter (a b : SectionFlags) : SectionFlags := ⟨a.bits &&& b.bits⟩

def symmDiff (a b : SectionFlags) : SectionFlags := ⟨a.bits ^^^ b.bits⟩

def diff (a b : SectionFlags) : SectionFlags := ⟨a.bits &&& ~~~b.bits⟩

/-- Every bit of the named flags. -/
def all : SectionFlags := named.foldl (fun flags entry => flags.union entry.2) {}

/-- The flags without their unnamed bits. -/
def truncate (a : SectionFlags) : SectionFlags := a.inter all

def complement (a : SectionFlags) : SectionFlags := all.diff a

def isEmpty (a : SectionFlags) : Bool := a.bits == 0

def contains (a b : SectionFlags) : Bool := a.inter b == b

def intersects (a b : SectionFlags) : Bool := !(a.inter b).isEmpty

def isAll (a : SectionFlags) : Bool := a.contains all

/-- The flags with these bits, if each of them has a name. -/
def ofBits? (bits : UInt64) : Option SectionFlags :=
  if (⟨bits⟩ : SectionFlags).truncate.bits = bits then some ⟨bits⟩ else none

/-- The named flags that are set in full. -/
def set (a : SectionFlags) : List (String × SectionFlags) :=
  named.filter fun entry => a.contains entry.2

/-- The bits that the named flags leave over. -/
def rest (a : SectionFlags) : SectionFlags := a.set.foldl (fun flags entry => flags.diff entry.2) a

/-- The names of the flags that are set, and the bits that they leave over as a number. -/
def text (a : SectionFlags) : String :=
  let shown := a.set.map (·.1) ++ if a.rest.isEmpty then [] else [Text.hex a.rest.bits.toNat]
  "SectionFlags(" ++ (if shown.isEmpty then "0x0" else " | ".intercalate shown) ++ ")"

end SectionFlags

end Elf64
