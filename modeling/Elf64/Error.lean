import Elf64.FixedInt.Basic
import Elf64.Label
import Elf64.Output.Fault
import Elf64.Text.Hex
import Elf64.Text.Quoted

/-! Causes of failure and their wording.

An operation fails with a cause; a report is what a reader is told about it. -/

set_option autoImplicit false

namespace Elf64

inductive ErrorKind where
  | encodingOverflow
  | invalidLength
  | interiorNul
  | duplicateSectionName
  | duplicateSymbolName
  | unknownSection
  | invalidAlignment
  | invalidRawValue
  | misorderedSymbol
  | notFinalized
  | sinkWriteFailure
  deriving DecidableEq, Repr

/-- The part that a code plays in a record. -/
inductive CodeRole where
  | fileType
  | machine
  | sectionType
  | symbolBinding
  | symbolType
  | sectionRef
  deriving DecidableEq, Repr

def CodeRole.noun : CodeRole → String
  | fileType => "file type"
  | machine => "machine"
  | sectionType => "section type"
  | symbolBinding => "symbol binding"
  | symbolType => "symbol type"
  | sectionRef => "section reference"

inductive Error where
  | outOfRange (v : FixedInt)
  /-- A layout that reaches this offset cannot be held in memory. -/
  | tooLarge (offset : Nat)
  | wrongLength (expected actual : Nat)
  | interiorNul (text : String)
  | duplicateSection (name : String)
  | duplicateSymbol (name : String)
  | unknownSection (name : String)
  | unresolvedLink (target : String)
  | alignmentNotPowerOfTwo (alignment : Nat)
  | misalignedAddress (address alignment : Nat)
  /-- A code whose number belongs to another name, or does not fit its field. -/
  | misnamedCode (role : CodeRole) (label : Label)
  | misorderedSymbol (name : String)
  | notFinalized
  | output (fault : Output.Fault)
  deriving DecidableEq, Repr

/-- A failure in words: its kind, a fixed summary, what it was about, and the fault outside the
program that caused it. -/
structure Report where
  kind : ErrorKind
  summary : String
  detail : Option String := none
  cause : Option String := none
  deriving DecidableEq, Repr

def Report.message (report : Report) : String :=
  match report.detail with
  | none => report.summary
  | some detail => report.summary ++ ": " ++ detail

/-- The range of a field, and the value that lies outside it. -/
def FixedInt.rangeText (v : FixedInt) : String :=
  let sign := if v.signed then "signed" else "unsigned"
  s!"{v.value} is outside {v.least}..={v.greatest} for a {v.width.bytes}-byte {sign} field"

namespace Error

def kind : Error → ErrorKind
  | outOfRange _ | tooLarge _ => .encodingOverflow
  | wrongLength _ _ => .invalidLength
  | interiorNul _ => .interiorNul
  | duplicateSection _ => .duplicateSectionName
  | duplicateSymbol _ => .duplicateSymbolName
  | unknownSection _ | unresolvedLink _ => .unknownSection
  | alignmentNotPowerOfTwo _ | misalignedAddress _ _ => .invalidAlignment
  | misnamedCode _ _ => .invalidRawValue
  | misorderedSymbol _ => .misorderedSymbol
  | notFinalized => .notFinalized
  | output _ => .sinkWriteFailure

def summary : Error → String
  | outOfRange _ => "value does not fit field width"
  | tooLarge _ => "image is too large to lay out in memory"
  | wrongLength _ _ => "wrong number of bytes for field width"
  | interiorNul _ => "string table entries cannot contain NUL"
  | duplicateSection _ => "section name already in use"
  | duplicateSymbol _ => "symbol name already in use"
  | unknownSection _ => "no section with that name"
  | unresolvedLink _ => "link target section does not exist"
  | alignmentNotPowerOfTwo _ => "section alignment is not a power of two"
  | misalignedAddress _ _ => "section address is not aligned"
  | misnamedCode role _ => role.noun ++ " out of range"
  | misorderedSymbol _ => "local symbols must be added before all others"
  | notFinalized => "image must be finalized before it is serialized"
  | output _ => "failed to write to output"

def detail : Error → Option String
  | outOfRange v => some v.rangeText
  | tooLarge offset => some (Text.hex offset)
  | wrongLength expected actual => some s!"expected {expected}, got {actual}"
  | interiorNul text => some (Text.quoted text)
  | duplicateSection name | duplicateSymbol name | unknownSection name
  | unresolvedLink name | misorderedSymbol name => some name
  | alignmentNotPowerOfTwo alignment => some (toString alignment)
  | misalignedAddress address alignment =>
    some (Text.hex address ++ " with alignment " ++ toString alignment)
  | misnamedCode _ label => some label.text
  | notFinalized => none
  | output fault => some fault.text

def cause : Error → Option String
  | output fault => some fault.text
  | _ => none

def report (error : Error) : Report := ⟨error.kind, error.summary, error.detail, error.cause⟩

/-- A report has a cause if the output is at fault, and the fault is then what it is about. -/
theorem cause_eq (error : Error) :
    error.cause = if error.kind = .sinkWriteFailure then error.detail else none := by
  cases error <;> rfl

/-- Every failure says what it is about, but for that of an image that is not finalized. -/
theorem detail_eq_none_iff (error : Error) : error.detail = none ↔ error = .notFinalized := by
  cases error <;> simp [detail]

end Error

end Elf64
