import Mathlib.Data.List.Induction
import Elf64.Proofs.Reader
import Elf64.Proofs.TextLookup

/-! String tables read back from their bytes.

Only the ends of texts are zeros, so that cutting the bytes behind every zero recovers the texts one by
one (`StringTable.WellFormed.splitOn_encode`), and tables of the same bytes are the same
(`StringTable.WellFormed.eq_of_encode`). The bytes are those that a writer puts out, and as many as the
table has counted while texts were added to it (`StringTable.reads_back`). -/

set_option autoImplicit false

namespace Elf64

namespace StringTable

open Output (Writer)

variable {table other : StringTable}

/-! ## Cutting -/

theorem splitOn_flatMap {texts : List String} (closed : ∀ text ∈ texts, 0 ∉ utf8 text) :
    (texts.flatMap fun text => utf8 text ++ [0]).splitOn 0 = texts.map utf8 ++ [[]] := by
  induction texts with
  | nil => rfl
  | cons first rest ih =>
    have later := ih fun text member => closed text (List.mem_cons_of_mem _ member)
    rw [List.flatMap_cons, List.append_assoc, List.singleton_append,
      List.splitOn_append_cons_self_of_not_mem (closed first List.mem_cons_self), later]
    rfl

theorem WellFormed.splitOn_encode (wellFormed : table.WellFormed) :
    table.encode.splitOn 0 = table.texts.map utf8 ++ [[]] :=
  splitOn_flatMap wellFormed.closed

/-- The bytes determine the table. -/
theorem WellFormed.eq_of_encode (wellFormed : table.WellFormed) (wellFormed' : other.WellFormed)
    (same : other.encode = table.encode) : other = table := by
  have pieces : other.texts.map utf8 ++ [[]] = table.texts.map utf8 ++ [[]] := by
    rw [← wellFormed'.splitOn_encode, ← wellFormed.splitOn_encode, same]
  have texts : other.texts = table.texts :=
    List.map_injective_iff.mpr utf8_injective (List.append_cancel_right pieces)
  have sizes : other.size = table.size := by rw [wellFormed'.size, wellFormed.size, same]
  obtain ⟨added, size⟩ := table
  obtain ⟨added', size'⟩ := other
  obtain rfl : added' = added := Array.toList_inj.mp (List.cons.inj texts).2
  obtain rfl : size' = size := sizes
  rfl

/-! ## The texts of a filled table -/

theorem size_le_size_add (table : StringTable) (text : String) : table.size ≤ (table.add text).2.size := by
  cases checked : table.check text with
  | error e => exact Nat.le_of_eq (by rw [add_of_refused checked])
  | ok done => rw [add_of_check checked, size_push]; exact Nat.le_add_right _ _

theorem filled_concat (texts : List String) (last : String) :
    filled (texts ++ [last]) = ((filled texts).add last).2 := by
  simp [filled]

-- As long as offsets fit a word, only texts with a zero in them are refused.
theorem texts_filled {texts : List String} (small : (filled texts).size < 2 ^ 32) :
    (filled texts).texts = "" :: texts.filter fun text => 0 ∉ utf8 text := by
  induction texts using List.reverseRecOn with
  | nil => rfl
  | append_singleton texts last ih =>
    rw [filled_concat] at small ⊢
    have before : (filled texts).size < 2 ^ 32 := Nat.lt_of_le_of_lt (size_le_size_add _ last) small
    rw [List.filter_append, ← List.cons_append, ← ih before]
    by_cases closed : 0 ∉ utf8 last
    · rw [add_of_check (check_eq_ok_iff.mpr ⟨closed, before⟩), texts_push]
      simp [closed]
    · rw [add_of_refused (if_pos (not_not.mp closed))]
      simp [closed]

/-- A table that these texts have been offered to, and what its bytes tell about it. -/
structure ReadsBack (texts : List String) (table : StringTable) : Prop where
  /-- A writer that nothing disturbs puts out the bytes of the table. -/
  written : ∀ order,
    Writer.Leaves (Writer.writeRecords table.records { sink := {}, order }) order table.encode
  length : table.encode.length = table.size
  inOrder : table.size < 2 ^ 32 → table.texts = "" :: texts.filter fun text => 0 ∉ utf8 text
  /-- Each text lies in front of a zero, and nothing follows the last zero. -/
  pieces : table.encode.splitOn 0 = table.texts.map utf8 ++ [[]]
  textAt : ∀ start text, (start, text) ∈ table.entries →
    Reader.textAt? table.encode start = some (utf8 text)
  unique : ∀ others, (filled others).encode = table.encode → filled others = table

theorem reads_back (texts : List String) : (filled texts).ReadsBack texts := by
  have wellFormed := (lists_filled texts).wellFormed
  exact {
    written := fun order => by
      have written := (Writer.holds_start order).writeRecords (filled texts).records_fit
      rwa [List.nil_append, encode_records] at written
    length := wellFormed.size.symm
    inOrder := texts_filled
    pieces := wellFormed.splitOn_encode
    textAt := fun start text entry => by
      have whole : slice? (filled texts).encode 0 (filled texts).size = some (filled texts).encode :=
        slice?_eq_some_iff.mpr ⟨[], [], by simp, rfl, wellFormed.size.symm⟩
      simpa using (wellFormed.textAt? whole entry).1
    unique := fun others same => wellFormed.eq_of_encode (lists_filled others).wellFormed same }

end StringTable

end Elf64
