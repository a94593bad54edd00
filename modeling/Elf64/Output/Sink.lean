import Elf64.Bytes
import Elf64.Output.Fault

/-! An output that takes bytes, with the ways in which outputs disappoint their writers: a limited
capacity, writes that take only some of the bytes, and interruptions. -/

set_option autoImplicit false

namespace Elf64.Output

/-- What a sink does beyond taking bytes. -/
inductive Temper where
  /-- Fails when no byte can be taken. -/
  | refusing
  /-- Takes none of the bytes, without a failure, when no byte can be taken. -/
  | stalling
  /-- Interrupts every other write, from the first one on, and fails when no byte can be taken. -/
  | interrupting
  deriving DecidableEq, Repr

structure Sink where
  /-- How many bytes fit in all. -/
  capacity : Option Nat := none
  /-- How many bytes one write takes at most. -/
  chunk : Option Nat := none
  temper : Temper := .refusing
  flushFails : Bool := false
  stored : Array UInt8 := #[]
  /-- How many writes there were so far. -/
  writes : Nat := 0
  deriving DecidableEq, Repr

/-- What one write comes to. -/
inductive Reply where
  | interrupted
  | accepted (count : Nat)
  | refused (fault : Fault)
  deriving DecidableEq, Repr

namespace Sink

def interruptsNext (sink : Sink) : Bool :=
  sink.temper = .interrupting && sink.writes % 2 == 0

/-- How many bytes the next write takes at most. -/
def limit (sink : Sink) : Option Nat :=
  match sink.capacity, sink.chunk with
  | none, chunk => chunk
  | some capacity, none => some (capacity - sink.stored.size)
  | some capacity, some chunk => some (min (capacity - sink.stored.size) chunk)

/-- The bytes at the front of a buffer that one write takes. -/
def acceptable (sink : Sink) (buffer : Bytes) : Bytes :=
  match sink.limit with
  | none => buffer
  | some limit => buffer.take limit

def write (sink : Sink) (buffer : Bytes) : Reply × Sink :=
  if sink.interruptsNext then
    (.interrupted, { sink with writes := sink.writes + 1 })
  else
    let piece := sink.acceptable buffer
    let reply :=
      if piece.isEmpty && !buffer.isEmpty && sink.temper != .stalling then .refused .full
      else .accepted piece.length
    (reply, { sink with stored := sink.stored.appendList piece, writes := sink.writes + 1 })

theorem interruptsNext_of_write {sink next : Sink} {buffer : Bytes}
    (interrupted : sink.write buffer = (.interrupted, next)) :
    sink.interruptsNext = true ∧ next.interruptsNext = false := by
  unfold write at interrupted
  split at interrupted
  · next now =>
    simp only [Prod.mk.injEq, true_and] at interrupted
    subst interrupted
    refine ⟨now, ?_⟩
    simp [interruptsNext] at now ⊢
    omega
  · grind

/-- Writes until all bytes are taken: an interrupted write is tried again, and a write that takes
only some of the bytes is followed by one for the rest. -/
def writeAll (sink : Sink) (buffer : Bytes) : Except Fault Unit × Sink :=
  match buffer with
  | [] => (.ok (), sink)
  | first :: rest =>
    match _reply : sink.write (first :: rest) with
    | (.interrupted, sink) => sink.writeAll (first :: rest)
    | (.refused fault, sink) => (.error fault, sink)
    | (.accepted 0, sink) => (.error .stalled, sink)
    | (.accepted (count + 1), sink) => sink.writeAll (rest.drop count)
termination_by (buffer.length, sink.interruptsNext.toNat)
decreasing_by
  · have turn := interruptsNext_of_write _reply
    simp [Prod.lex_def, turn]
  · simp only [Prod.lex_def, List.length_drop, List.length_cons]
    omega

def flush (sink : Sink) : Except Fault Unit :=
  if sink.flushFails then .error .flush else .ok ()

end Sink

end Elf64.Output
