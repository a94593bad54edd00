import Elf64.Image.Finalize
import Elf64.Output.Destination
import Elf64.Output.Writer

/-! The file of a finalized image, and where it can be written.

The file is written piece by piece, each section behind the zeros that lead up to the offset in its
header. Memory for the whole of it is reserved first. Whether there is enough of it is for the machine
to say, so its answer to each size is an argument (`reserves`) of whatever produces the file. -/

set_option autoImplicit false

namespace Elf64.Image

open Output (Writer)

/-- The contents of the section at `index`, where the two tables are at the indexes `symtab` and
`strtab`. -/
def contentRecords (image : Image) (symtab strtab index : Nat) (entry : Section) : List Record :=
  if index = symtab then image.symbols.records
  else if index = strtab then image.strings.records
  else [[.bytes entry.contents]]

/-- Writes the contents of sections that occupy the file, the first of which is at `index`. -/
def writeSections (image : Image) (symtab strtab : Nat) :
    Nat → List Section → Writer → Outcome Writer Unit
  | _, [], writer => (.ok (), writer)
  | index, entry :: rest, writer =>
    if entry.header.occupiesFile then
      (writer.padTo entry.header.offset.toNat).andThen fun _ writer =>
      (writer.writeRecords (image.contentRecords symtab strtab index entry)).andThen fun _ writer =>
      writeSections image symtab strtab (index + 1) rest writer
    else
      writeSections image symtab strtab (index + 1) rest writer

/-- Writes the file. -/
def write (image : Image) (writer : Writer) : Outcome Writer Unit :=
  Outcome.andThen (image.sections.require symtabName, writer) fun symtab writer =>
  Outcome.andThen (image.sections.require strtabName, writer) fun strtab writer =>
  (writer.writeRecord image.header.record).andThen fun _ writer =>
  (writer.writeRecords image.sections.records).andThen fun _ writer =>
  image.writeSections symtab strtab 1 image.sections.added.toList writer

/-- The file of an image whose headers are up to date, if memory for it can be reserved. -/
def serialize (image : Image) (reserves : Nat → Bool) : Except Error Bytes :=
  match image.finalSize with
  | none => .error .notFinalized
  | some size =>
    if reserves size then
      match image.write { sink := {} } with
      | (answer, writer) => answer.map fun _ => writer.sink.stored.toList
    else
      .error (.tooLarge size)

/-- Writes the file to a sink, which is left alone if there is no file to be written. -/
def writeTo (image : Image) (reserves : Nat → Bool) (sink : Output.Sink) : Outcome Output.Sink Unit :=
  Outcome.andThen (image.serialize reserves, sink) fun bytes sink =>
    match sink.writeAll bytes with
    | (.error fault, sink) => (.error (.output fault), sink)
    | (.ok (), sink) => (sink.flush.mapError .output, sink)

/-- Creates a file, unless there is nothing to be written. -/
def writeToFile (image : Image) (reserves : Nat → Bool) (destination : Output.Destination) :
    Outcome Output.Destination Unit :=
  Outcome.andThen (image.serialize reserves, destination) fun bytes destination =>
    match destination.replace bytes with
    | (answer, destination) => (answer.mapError .output, destination)

end Elf64.Image
