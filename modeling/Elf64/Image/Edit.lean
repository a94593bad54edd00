import Elf64.Image.Finalize

/-! Changes to an image.

Every change makes the headers out of date. A section, a symbol or a link that is refused for its
own sake leaves the image alone; a text that the string table refuses leaves the tables alone, but
the headers count as out of date. -/

set_option autoImplicit false

namespace Elf64.Image

/-- Adds a text to the string table and gives its offset. -/
def addString (image : Image) (text : String) : Outcome Image Nat :=
  match image with
  | ⟨header, sections, strings, symbols, _⟩ =>
    match strings.add text with
    | (answer, strings) => (answer, ⟨header, sections, strings, symbols, none⟩)

/-- Adds a section and gives its index. Its header gets the offset of its name. -/
def addSection (image : Image) (name : String) (header : SectionHeader) (contents : Bytes) :
    Outcome Image Nat :=
  match image.sections.check name header with
  | .error e => (.error e, image)
  | .ok () =>
    match image.strings.check name with
    | .error e => (.error e, image.reopen)
    | .ok () => (.ok image.sections.size, image.pushSection name header contents)

/-- Adds a symbol and gives its index. A symbol with a name gets the offset of its name. -/
def addSymbol (image : Image) (name : String) (symbol : Symbol) : Outcome Image Nat :=
  match image.symbols.check name symbol with
  | .error e => (.error e, image)
  | .ok () =>
    match if name = "" then .ok () else image.strings.check name with
    | .error e => (.error e, image.reopen)
    | .ok () => (.ok image.symbols.size, image.pushSymbol name symbol)

/-- Links the section `source` to the one named `target`, which may be added later. -/
def link (image : Image) (source target : String) : Outcome Image Unit :=
  match image with
  | ⟨header, sections, strings, symbols, finalSize⟩ =>
    match sections.link source target with
    | (.error e, sections) => (.error e, ⟨header, sections, strings, symbols, finalSize⟩)
    | (.ok (), sections) => (.ok (), ⟨header, sections, strings, symbols, none⟩)

def editHeader (image : Image) (f : FileHeader → FileHeader) : Image :=
  { image with header := f image.header, finalSize := none }

/-- Changes the header of a section, if there is one of that name. -/
def editSection (image : Image) (name : String) (f : SectionHeader → SectionHeader) : Image :=
  match image.sections.indexOf? name with
  | none => image.reopen
  | some i => { image with sections := image.sections.modify i f, finalSize := none }

end Elf64.Image

namespace Elf64

/-- A change to an image. -/
inductive Edit where
  | addString (text : String)
  | addSection (name : String) (header : SectionHeader) (contents : Bytes)
  | addSymbol (name : String) (symbol : Symbol)
  | link (source target : String)
  | editHeader (f : FileHeader → FileHeader)
  | editSection (name : String) (f : SectionHeader → SectionHeader)
  | finalize

/-- What a change answers. -/
inductive Answer where
  | done
  /-- The offset of a text, or the index of a section or a symbol. -/
  | number (n : Nat)
  /-- Whether there is a section of the name. -/
  | found (present : Bool)
  deriving DecidableEq, Repr

namespace Edit

def apply (edit : Edit) (image : Image) : Outcome Image Answer :=
  match edit with
  | addString text => (image.addString text).map .number
  | addSection name header contents => (image.addSection name header contents).map .number
  | addSymbol name symbol => (image.addSymbol name symbol).map .number
  | link source target => (image.link source target).map fun _ => .done
  | editHeader f => (.ok .done, image.editHeader f)
  | editSection name f =>
    (.ok (.found (image.sections.indexOf? name).isSome), image.editSection name f)
  | finalize => image.finalize.map fun _ => .done

/-- The answers to a list of changes, and the image after them. -/
def applyAll : List Edit → Image → List (Except Error Answer) × Image
  | [], image => ([], image)
  | edit :: rest, image =>
    let (answer, image) := edit.apply image
    let (answers, image) := applyAll rest image
    (answer :: answers, image)

/-- A new image is what changes to an empty one come to, all of them accepted: the symbol table section
is added and linked to the string table section, which is added last. -/
theorem applyAll_empty (config : Config) :
    applyAll [.addSection symtabName symtabHeader [], .link symtabName strtabName,
        .addSection strtabName strtabHeader []] { header := config.header } =
      ([.ok (.number 1), .ok .done, .ok (.number 2)], .ofConfig config) := by
  rfl

end Edit

end Elf64
