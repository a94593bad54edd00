import Elf64.Error

/-! The outcome of an operation that may change its state before it fails. -/

set_option autoImplicit false

namespace Elf64

/-- The answer of an operation, or why it failed, together with the state it leaves. -/
abbrev Outcome (σ α : Type) := Except Error α × σ

/-- Continue from a success; a failure keeps the state that it left. -/
@[inline] def Outcome.andThen {σ α β : Type} (first : Outcome σ α) (next : α → σ → Outcome σ β) :
    Outcome σ β :=
  match first with
  | (.ok a, state) => next a state
  | (.error e, state) => (.error e, state)

/-- Change the answer of a success. -/
@[inline] def Outcome.map {σ α β : Type} (f : α → β) (outcome : Outcome σ α) : Outcome σ β :=
  outcome.andThen fun a state => (.ok (f a), state)

@[simp] theorem Outcome.andThen_ok {σ α β : Type} (a : α) (state : σ)
    (next : α → σ → Outcome σ β) : Outcome.andThen (.ok a, state) next = next a state := rfl

@[simp] theorem Outcome.andThen_error {σ α β : Type} (e : Error) (state : σ)
    (next : α → σ → Outcome σ β) : Outcome.andThen (.error e, state) next = (.error e, state) := rfl

end Elf64
