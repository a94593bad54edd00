import Elf64.Proofs.Additions
import Elf64.Proofs.Success

/-! Additions that are refused.

Only a text that the string table refuses makes the headers count as out of date
(`Image.refused_addition`); whatever else is wrong with an addition, the image stays as it is. -/

set_option autoImplicit false

namespace Elf64

/-! ## Who refuses -/

/-- The string table has refused a text: because of a zero in it, or because the table is full. -/
def Error.refusesText (e : Error) : Bool := e.kind = .interiorNul ∨ e.kind = .encodingOverflow

theorem StringTable.refusesText_of_check {table : StringTable} {text : String} {e : Error}
    (refused : table.check text = .error e) : e.refusesText = true := by
  simp only [check, FixedInt.check] at refused
  split at refused
  · cases refused
    rfl
  · split at refused <;> cases refused
    rfl

theorem SectionHeader.refusesText_of_validate {header : SectionHeader} {e : Error}
    (refused : header.validate = .error e) : e.refusesText = false := by
  rcases bind_eq_error refused with type | ⟨-, -, alignment⟩
  · unfold SectionType.check at type
    split at type <;> cases type
    rfl
  · simp only [checkAlignment] at alignment
    repeat' split at alignment
    all_goals cases alignment
    all_goals rfl

theorem SectionTable.refusesText_of_check {table : SectionTable} {name : String}
    {header : SectionHeader} {e : Error} (refused : table.check name header = .error e) :
    e.refusesText = false := by
  unfold check at refused
  split at refused
  · cases refused
    rfl
  · exact SectionHeader.refusesText_of_validate refused

theorem SymbolTable.refusesText_of_check {table : SymbolTable} {name : String} {symbol : Symbol}
    {e : Error} (refused : table.check name symbol = .error e) : e.refusesText = false := by
  rcases bind_eq_error refused with used | ⟨-, -, refused⟩
  · unfold checkName at used
    split at used <;> cases used
    rfl
  rcases bind_eq_error refused with place | ⟨-, -, order⟩
  · unfold Symbol.validate SectionRef.check at place
    split at place <;> cases place
    rfl
  · unfold checkOrder at order
    split at order <;> cases order
    rfl

namespace Image

/-! ## What a refusal leaves -/

variable {image : Image} {edit : Edit} {e : Error}

theorem state_of_checks {α : Type} {first second : Except Error Unit} {answer : α} {next : Image}
    (other : first = .error e → e.refusesText = false) (text : second = .error e → e.refusesText = true)
    (refused : (image.afterChecks first second answer next).1 = .error e) :
    (image.afterChecks first second answer next).2 = if e.refusesText then image.reopen else image := by
  cases first with
  | error e' =>
    cases refused
    rw [other rfl]
    rfl
  | ok done =>
    cases second with
    | error e' =>
      cases refused
      rw [text rfl]
      rfl
    | ok done => contradiction

theorem state_of_refused (adds : edit.isAddition) (refused : (edit.apply image).1 = .error e) :
    (edit.apply image).2 = if e.refusesText then image.reopen else image := by
  cases edit with
  | editHeader | editSection | finalize => contradiction
  | addString text =>
    rw [Edit.apply] at refused ⊢
    cases checked : image.strings.check text with
    | ok done =>
      rw [addString_of_check checked] at refused
      contradiction
    | error e' =>
      rw [addString_of_refused checked] at refused ⊢
      cases refused
      exact (if_pos (StringTable.refusesText_of_check checked)).symm
  | addSection name header contents =>
    rw [Edit.apply, Outcome.fst_map_eq_error_iff] at refused
    rw [Edit.apply, Outcome.snd_map]
    rw [addSection_eq] at refused ⊢
    exact state_of_checks SectionTable.refusesText_of_check StringTable.refusesText_of_check refused
  | addSymbol name symbol =>
    rw [Edit.apply, Outcome.fst_map_eq_error_iff] at refused
    rw [Edit.apply, Outcome.snd_map]
    rw [addSymbol_eq] at refused ⊢
    refine state_of_checks SymbolTable.refusesText_of_check (fun stored => ?_) refused
    split at stored
    · contradiction
    · exact StringTable.refusesText_of_check stored
  | link source target =>
    rw [Edit.apply, Outcome.fst_map_eq_error_iff] at refused
    rw [Edit.apply, Outcome.snd_map]
    cases found : image.sections.indexOf? source with
    | some i =>
      simp only [Image.link, SectionTable.link_of_indexOf? found] at refused
      contradiction
    | none =>
      simp only [Image.link, SectionTable.link_of_indexOf?_eq_none found] at refused ⊢
      cases refused
      rfl

/-- A refused addition leaves the image as it is, unless the image was finalized and it is the string
table that has refused a text: then the image has to be finalized again. -/
theorem refused_addition (image : Image) {edit : Edit} (adds : edit.isAddition) {e : Error}
    (refused : (edit.apply image).1 = .error e) :
    ((edit.apply image).2.isFinalized = image.isFinalized ↔ ¬ (image.isFinalized ∧ e.refusesText)) ∧
      ((edit.apply image).2.isFinalized = image.isFinalized → (edit.apply image).2 = image) := by
  rw [state_of_refused adds refused]
  cases about : e.refusesText with
  | false => simp
  | true =>
    -- An image that is not finalized is not changed by reopening it.
    obtain ⟨header, sections, strings, symbols, finalSize⟩ := image
    cases finalSize <;> simp [reopen, isFinalized]

-- The name of a section is in use, which the section table finds out.
theorem refused_duplicate :
    let edit := Edit.addSection ".text" { type := .progBits } []
    (edit.apply Run.sample.image).1 = .error (.duplicateSection ".text") ∧
      (edit.apply Run.sample.image).2 = Run.sample.image := by
  intro edit
  have refused : (edit.apply Run.sample.image).1 = .error (.duplicateSection ".text") := by decide +kernel
  obtain ⟨finalized, same⟩ := refused_addition Run.sample.image rfl refused
  exact ⟨refused, same (finalized.mpr fun text => nomatch text.2)⟩

/-- Not every refusal leaves a finalized image finalized: a text with a zero in it does not. -/
theorem reopened_by_refusal : ¬ ∀ (run : Run) (edit : Edit) (e : Error), edit.isAddition →
    (edit.apply run.image).1 = .error e →
    (edit.apply run.image).2.isFinalized = run.image.isFinalized := by
  intro claimed
  have refused : ((Edit.addString "a\x00b").apply Run.sample.image).1 = .error (.interiorNul "a\x00b") := by
    decide +kernel
  have kept := claimed Run.sample (.addString "a\x00b") _ rfl refused
  have lost : ((Edit.addString "a\x00b").apply Run.sample.image).2.isFinalized ≠
      Run.sample.image.isFinalized := by decide +kernel
  exact lost kept

end Image

end Elf64
