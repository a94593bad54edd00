import Elf64.Outcome
import Elf64.Output.Sink
import Elf64.Record

/-! A writer: a sink, the byte order of the numbers written to it, and the count of the bytes that
went through.

A number is checked before any of its bytes reach the sink, and the position moves only when all
bytes of a write were taken. -/

set_option autoImplicit false

namespace Elf64.Output

structure Writer where
  sink : Sink
  order : ByteOrder := .little
  position : Nat := 0
  deriving DecidableEq, Repr

namespace Writer

def writeBytes (writer : Writer) (bytes : Bytes) : Outcome Writer Unit :=
  match writer with
  | ⟨sink, order, position⟩ =>
    match sink.writeAll bytes with
    | (.ok (), sink) => (.ok (), ⟨sink, order, position + bytes.length⟩)
    | (.error fault, sink) => (.error (.output fault), ⟨sink, order, position⟩)

/-- Writes a number in the writer's byte order. -/
def writeValue (writer : Writer) (v : FixedInt) : Outcome Writer Unit :=
  match v.check with
  | .error e => (.error e, writer)
  | .ok () => writer.writeBytes { v with order := writer.order }.bytes

def writeField (writer : Writer) : Field → Outcome Writer Unit
  | .bytes content => writer.writeBytes content
  | .number v => writer.writeValue v

/-- Writes the fields of a record one after the other, up to the first that fails. -/
def writeRecord : Record → Writer → Outcome Writer Unit
  | [], writer => (.ok (), writer)
  | field :: rest, writer => (writer.writeField field).andThen fun _ writer => writeRecord rest writer

/-- Writes records one after the other, up to the first that fails. -/
def writeRecords : List Record → Writer → Outcome Writer Unit
  | [], writer => (.ok (), writer)
  | record :: rest, writer =>
    (writer.writeRecord record).andThen fun _ writer => writeRecords rest writer

/-- How many zeros are written at a time. -/
def blockSize : Nat := 4096

/-- The zeros that are written next on the way to a position. -/
def nextBlock (writer : Writer) (target : Nat) : Bytes :=
  .replicate (min (target - writer.position) blockSize) 0

theorem length_nextBlock (writer : Writer) (target : Nat) :
    (writer.nextBlock target).length = min (target - writer.position) blockSize :=
  List.length_replicate

theorem position_writeBytes (writer : Writer) (bytes : Bytes) :
    (writer.writeBytes bytes).2.position =
      writer.position + bif (writer.writeBytes bytes).1.isOk then bytes.length else 0 := by
  simp only [writeBytes]
  rcases writer.sink.writeAll bytes with ⟨_ | _, sink⟩ <;> rfl

/-- Fills with zeros up to a position, a block at a time. At or past the position nothing is
written. -/
def padTo (writer : Writer) (target : Nat) : Outcome Writer Unit :=
  if writer.position < target then
    let outcome := writer.writeBytes (writer.nextBlock target)
    if _taken : outcome.1.isOk then outcome.2.padTo target else outcome
  else (.ok (), writer)
termination_by target - writer.position
decreasing_by
  -- The block that was taken is not empty.
  have moved := writer.position_writeBytes (writer.nextBlock target)
  rw [_taken, cond_true, length_nextBlock, blockSize] at moved
  omega

/-- Something to be written. -/
inductive Action where
  | value (v : FixedInt)
  | bytes (content : Bytes)
  | record (fields : Record)
  | padTo (target : Nat)
  deriving DecidableEq, Repr

def perform (writer : Writer) : Action → Outcome Writer Unit
  | .value v => writer.writeValue v
  | .bytes content => writer.writeBytes content
  | .record fields => writer.writeRecord fields
  | .padTo target => writer.padTo target

end Writer

end Elf64.Output
