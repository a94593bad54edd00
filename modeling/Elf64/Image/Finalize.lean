import Elf64.Image.Basic
import Elf64.Image.Layout

/-! Bringing the headers of an image in line with its tables.

The stages run in order. The first one that fails ends the work, and what was stored until then
stays in the image, which is not finalized. -/

set_option autoImplicit false

namespace Elf64.Image

def resolveLinks (image : Image) : Outcome Image Unit :=
  match image with
  | ⟨header, sections, strings, symbols, finalSize⟩ =>
    match sections.resolveLinks with
    | (answer, sections) => (answer, ⟨header, sections, strings, symbols, finalSize⟩)

/-- Stores the index of the first symbol that is not local in the header of the symbol table. -/
def storeFirstGlobal (image : Image) : Outcome Image Unit :=
  let first := image.symbols.firstGlobal
  Outcome.andThen (image.sections.require symtabName, image) fun index image =>
  Outcome.andThen ((FixedInt.count first .word).check, image) fun _ image =>
    let sections := image.sections.modify index fun header => { header with info := .ofNat first }
    (.ok (), { image with sections })

/-- Where the contents of the sections start: behind the file header and the section table. -/
def contentsStart (image : Image) : Nat := FileHeader.recordSize + image.sections.encodedSize

/-- Gives every section its place. The answer is the size of the file. -/
def layOut (image : Image) : Outcome Image Nat :=
  match placeAll image.contentsSize #[] image.contentsStart image.sections.added.toList with
  | (answer, added) =>
    let image := { image with sections := { image.sections with added } }
    Outcome.andThen (answer, image) fun size image =>
      if size < memoryBound then (.ok size, image) else (.error (.tooLarge size), image)

/-- Records the section table in the file header, and the size of the file. -/
def close (image : Image) (size : Nat) : Outcome Image Unit :=
  let header := { image.header with sectionTableOffset := .ofNat FileHeader.recordSize }
  let image := { image with header }
  Outcome.andThen (image.sections.require strtabName, image) fun index image =>
  Outcome.andThen (image.header.close image.sections.size index, image) fun header image =>
    (.ok (), { image with header, finalSize := some size })

def finalize (image : Image) : Outcome Image Unit :=
  let image := image.reopen
  Outcome.andThen (image.sections.validate, image) fun _ image =>
  Outcome.andThen image.resolveLinks fun _ image =>
  Outcome.andThen image.storeFirstGlobal fun _ image =>
  Outcome.andThen image.layOut fun size image =>
    image.close size

end Elf64.Image
