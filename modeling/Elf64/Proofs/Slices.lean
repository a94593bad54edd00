import Elf64.Proofs.Records

/-! Slices of byte strings.

A slice that is found splits the bytes in three (`slice?_eq_some_iff`), so that slices of slices and
slices of tables need no arithmetic on `take` and `drop`. -/

set_option autoImplicit false

namespace Elf64

/-- The `count` bytes from `offset` on, if the byte string has all of them. -/
def slice? (bytes : Bytes) (offset count : Nat) : Option Bytes :=
  if offset + count ≤ bytes.length then some ((bytes.drop offset).take count) else none

/-- A slice splits the bytes in three. -/
theorem slice?_eq_some_iff {bytes content : Bytes} {offset count : Nat} :
    slice? bytes offset count = some content ↔
      ∃ before after, bytes = before ++ (content ++ after) ∧ before.length = offset ∧
        content.length = count := by
  unfold slice?
  constructor
  · intro found
    split at found
    · next inside =>
      obtain rfl := Option.some.inj found
      refine ⟨bytes.take offset, (bytes.drop offset).drop count, ?_, ?_, ?_⟩
      · rw [List.take_append_drop, List.take_append_drop]
      · rw [List.length_take]
        omega
      · rw [List.length_take, List.length_drop]
        omega
    · contradiction
  · rintro ⟨before, after, rfl, rfl, rfl⟩
    rw [if_pos (by simp only [List.length_append]; omega)]
    simp

theorem inside_of_slice? {bytes content : Bytes} {offset count : Nat}
    (found : slice? bytes offset count = some content) : offset + count ≤ bytes.length := by
  unfold slice? at found
  split at found
  · assumption
  · contradiction

theorem length_of_slice? {bytes content : Bytes} {offset count : Nat}
    (found : slice? bytes offset count = some content) : content.length = count := by
  obtain ⟨-, -, -, -, length⟩ := slice?_eq_some_iff.mp found
  exact length

-- A slice of a slice.
theorem slice?_trans {bytes outer inner : Bytes} {offset count start length : Nat}
    (first : slice? bytes offset count = some outer) (second : slice? outer start length = some inner) :
    slice? bytes (offset + start) length = some inner := by
  obtain ⟨before, after, rfl, rfl, rfl⟩ := slice?_eq_some_iff.mp first
  obtain ⟨left, right, rfl, rfl, rfl⟩ := slice?_eq_some_iff.mp second
  exact slice?_eq_some_iff.mpr ⟨before ++ left, right ++ after, by simp, by simp, rfl⟩

/-- A record of a table, all of whose records are of one size. -/
theorem slice?_flatMap {α : Type} {encode : α → Bytes} {size : Nat}
    (fixed : ∀ item, (encode item).length = size) {items : List α} {i : Nat} {item : α}
    (here : items[i]? = some item) :
    slice? (items.flatMap encode) (size * i) size = some (encode item) := by
  obtain ⟨inside, rfl⟩ := List.getElem?_eq_some_iff.mp here
  refine slice?_eq_some_iff.mpr ⟨(items.take i).flatMap encode, (items.drop (i + 1)).flatMap encode, ?_, ?_,
    fixed _⟩
  · rw [← List.flatMap_cons, ← List.drop_eq_getElem_cons inside, ← List.flatMap_append, List.take_append_drop]
  · rw [length_flatMap fixed, List.length_take, Nat.min_eq_left (Nat.le_of_lt inside)]

end Elf64
