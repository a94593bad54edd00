import Elf64.Proofs.Serialization
import Elf64.Proofs.Sinks

/-! Files written to sinks and destinations.

A file goes to a sink as a whole or not at all as far as the answer is concerned: a success says that
every byte is stored and flushed. After a failure the sink has the front of the file, as much of it as
there was room for, and the error names the fault outside the program (`Image.delivered`). Where a file is to
be created, it is there as a whole after a success, and nothing has changed after a failure (`Run.created`). -/

set_option autoImplicit false

namespace Elf64.Image

open Output (Fault Sink)

/-- What becomes of a sink that nothing is stored in when it is to take these bytes. -/
structure Delivers (sink : Sink) (bytes : Bytes) (outcome : Outcome Sink Unit) : Prop where
  stored : outcome.2.stored.toList =
    bytes.take (if sink.chunk = some 0 then 0 else sink.capacity.getD bytes.length)
  success : outcome.1 = .ok () ↔ outcome.2.stored.toList = bytes ∧ ¬ sink.flushFails
  /-- Only a sink that has all of the bytes is flushed. -/
  failure : ∀ e, outcome.1 = .error e →
    e = .output (if outcome.2.stored.toList = bytes then .flush else sink.shortage) ∧
      e.kind = .sinkWriteFailure ∧ ∃ fault : Fault, e.cause = some fault.text ∧ e = .output fault

variable {sink next : Sink} {bytes : Bytes}

theorem share_of_unused (unused : sink.stored = #[]) (bytes : Bytes) : sink.share bytes =
    bytes.take (if sink.chunk = some 0 then 0 else sink.capacity.getD bytes.length) := by
  simp only [Sink.share, Sink.room, unused]
  by_cases blocked : sink.chunk = some 0
  · simp [blocked]
  · cases sink.capacity <;> simp [blocked]

-- A sink that has room for all of the bytes can fail only when it is flushed.
theorem delivers_whole (unused : sink.stored = #[]) (whole : sink.share bytes = bytes)
    (stores : sink.Stores (sink.share bytes) next) :
    Delivers sink bytes (next.flush.mapError .output, next) := by
  have kept : next.stored.toList = sink.share bytes := by simp [stores.stored, unused]
  refine ⟨kept.trans (share_of_unused unused bytes), ?_, ?_⟩
  · rw [stores.flush, Sink.flush]
    cases sink.flushFails <;> simp [Except.mapError, kept, whole]
  · intro e failed
    rw [stores.flush, Sink.flush] at failed
    split at failed
    · obtain rfl := Except.error.inj failed
      exact ⟨by simp [kept, whole], rfl, .flush, rfl, rfl⟩
    · contradiction

theorem delivers_part (unused : sink.stored = #[]) (part : sink.share bytes ≠ bytes)
    (stores : sink.Stores (sink.share bytes) next) :
    Delivers sink bytes (.error (.output sink.shortage), next) := by
  have kept : next.stored.toList = sink.share bytes := by simp [stores.stored, unused]
  refine ⟨kept.trans (share_of_unused unused bytes), ?_, ?_⟩
  · simp [kept, part]
  · intro e failed
    obtain rfl := Except.error.inj failed
    exact ⟨by simp [kept, part], rfl, sink.shortage, rfl, rfl⟩

/-- A sink is left alone if there is no file to be written, and otherwise gets the front of the file. -/
theorem delivered (image : Image) (reserves : Nat → Bool) (unused : sink.stored = #[]) :
    match image.serialize reserves with
    | .error e => image.writeTo reserves sink = (.error e, sink)
    | .ok bytes => Delivers sink bytes (image.writeTo reserves sink) := by
  unfold writeTo
  cases image.serialize reserves with
  | error e => rfl
  | ok bytes =>
    obtain ⟨next, stores, written⟩ := sink.writeAll_eq bytes
    simp only [Outcome.andThen_ok, written]
    by_cases whole : sink.share bytes = bytes
    · simp only [if_pos whole]
      exact delivers_whole unused whole stores
    · simp only [if_neg whole]
      exact delivers_part unused whole stores

/-- A sink that interrupts, takes seven bytes at a time, and is full after a hundred. -/
theorem sample_delivered :
    let sink : Sink := { capacity := some 100, chunk := some 7, temper := .interrupting }
    let reserves : Nat → Bool := (· ≤ 482)
    sink.stored = #[] ∧ Run.sample.image.serialize reserves = .ok Run.sample.image.bytes ∧
      Delivers sink Run.sample.image.bytes (Run.sample.image.writeTo reserves sink) := by
  intro sink reserves
  have delivers := @delivered sink Run.sample.image reserves rfl
  rw [Run.serialize_sample] at delivers
  exact ⟨rfl, Run.serialize_sample, delivers⟩

end Elf64.Image

namespace Elf64.Run

open Output (Destination Fault)

/-- What becomes of a destination where the file of an image is to be created. -/
structure Creates (run : Run) (reserves : Nat → Bool) (destination : Destination)
    (outcome : Outcome Destination Unit) : Prop where
  /-- Only an image that is finalized, memory and a place for the file are needed. -/
  success : outcome.1 = .ok () ↔ (∃ size, run.image.finalSize = some size ∧ reserves size) ∧
    destination ≠ .orphaned ∧ destination ≠ .directory
  created : outcome.1 = .ok () → ∃ bytes, outcome.2.contents? = some bytes ∧ run.Agrees bytes
  kept : ∀ e, outcome.1 = .error e → outcome.2 = destination
  /-- The destination is to blame only for a file that there is. -/
  failure : ∀ e, outcome.1 = .error e → run.image.serialize reserves = .error e ∨
    ∃ fault : Fault, e = .output fault ∧ e.kind = .sinkWriteFailure ∧ e.cause = some fault.text

variable {run : Run} {reserves : Nat → Bool} {destination : Destination} {bytes : Bytes}

theorem creates_of_refused {e : Error} (refused : run.image.serialize reserves = .error e) :
    run.Creates reserves destination (.error e, destination) where
  success := by
    refine iff_of_false nofun ?_
    rintro ⟨⟨size, finalSize, reserved⟩, -⟩
    rw [Image.serialize_eq run.wellFormed finalSize, if_pos reserved] at refused
    contradiction
  created := nofun
  kept _ _ := rfl
  failure _ failed := by
    obtain rfl := Except.error.inj failed
    exact .inl refused

theorem creates_of_serialize (serialized : run.image.serialize reserves = .ok bytes) :
    run.Creates reserves destination
      ((destination.replace bytes).1.mapError .output, (destination.replace bytes).2) := by
  obtain ⟨size, finalSize, reserved, rfl⟩ := (Image.serialize_eq_ok_iff run.wellFormed).mp serialized
  have ready : ∃ size, run.image.finalSize = some size ∧ reserves size := ⟨size, finalSize, reserved⟩
  have agrees := agrees_bytes finalSize
  cases destination with
  | vacant | file =>
    refine ⟨?_, fun _ => ⟨_, rfl, agrees⟩, nofun, nofun⟩
    simp [Destination.replace, Except.mapError, ready]
  | orphaned | directory =>
    refine ⟨by simp [Destination.replace, Except.mapError], nofun, fun _ _ => rfl, ?_⟩
    rintro e ⟨⟩
    exact .inr ⟨_, rfl, rfl, rfl⟩

/-- Where a file can be created, the file of a finalized image is there as a whole afterwards; otherwise
the destination is left as it was. -/
theorem created (run : Run) (reserves : Nat → Bool) (destination : Destination) :
    run.Creates reserves destination (run.image.writeToFile reserves destination) := by
  unfold Image.writeToFile
  cases serialized : run.image.serialize reserves with
  | error e => exact creates_of_refused serialized
  | ok bytes => exact creates_of_serialize serialized

end Elf64.Run
