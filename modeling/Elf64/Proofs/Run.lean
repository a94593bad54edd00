import Mathlib.Data.List.Induction
import Elf64.Proofs.Steps

/-! Runs: changes made to a new image, one after the other.

A run has the answers to its changes and the image that they leave. What it has added can be told from
the changes and the answers alone (`Run.sections`, `Run.symbolNames`); the image agrees with that, and
its invariants hold after every run (`Run.wellFormed`). -/

set_option autoImplicit false

namespace Elf64

namespace Edit

theorem applyAll_append (first rest : List Edit) (image : Image) :
    applyAll (first ++ rest) image =
      ((applyAll first image).1 ++ (applyAll rest (applyAll first image).2).1,
        (applyAll rest (applyAll first image).2).2) := by
  induction first generalizing image with
  | nil => rfl
  | cons edit first ih => simp [applyAll, ih]

theorem length_applyAll (edits : List Edit) (image : Image) :
    (applyAll edits image).1.length = edits.length := by
  induction edits generalizing image with
  | nil => rfl
  | cons edit rest ih => simp [applyAll, ih]

/-- Every change follows a rule, which can look at the image that is changed. -/
def FollowAll (rule : Image → Edit → Prop) : List Edit → Image → Prop
  | [], _ => True
  | edit :: rest, image => rule image edit ∧ FollowAll rule rest (edit.apply image).2

theorem followAll_append {rule : Image → Edit → Prop} (first rest : List Edit) (image : Image) :
    FollowAll rule (first ++ rest) image ↔
      FollowAll rule first image ∧ FollowAll rule rest (applyAll first image).2 := by
  induction first generalizing image with
  | nil => simp [FollowAll, applyAll]
  | cons edit first ih => simp [FollowAll, applyAll, ih, and_assoc]

/-- The name and the contents of the section that a change has added. -/
def section? : Edit → Except Error Answer → Option (String × Bytes)
  | addSection name _ contents, .ok _ => some (name, contents)
  | _, _ => none

/-- The name of the symbol that a change has added, which can be empty. -/
def symbol? : Edit → Except Error Answer → Option String
  | addSymbol name _, .ok _ => some name
  | _, _ => none

end Edit

structure Run where
  config : Config := {}
  edits : List Edit := []

namespace Run

def answers (run : Run) : List (Except Error Answer) :=
  (Edit.applyAll run.edits (Image.ofConfig run.config)).1

def image (run : Run) : Image := (Edit.applyAll run.edits (Image.ofConfig run.config)).2

/-- One more change. -/
def extend (run : Run) (edit : Edit) : Run := { run with edits := run.edits ++ [edit] }

def Follows (run : Run) (rule : Image → Edit → Prop) : Prop :=
  Edit.FollowAll rule run.edits (Image.ofConfig run.config)

def history (run : Run) : List (Edit × Except Error Answer) := run.edits.zip run.answers

/-- Names and contents of the sections, as they were added from index one on. -/
def sections (run : Run) : List (String × Bytes) :=
  [(symtabName, []), (strtabName, [])] ++ run.history.filterMap fun entry => entry.1.section? entry.2

/-- The names under which the symbols were added, from index zero on. -/
def symbolNames (run : Run) : List String :=
  "" :: run.history.filterMap fun entry => entry.1.symbol? entry.2

theorem image_extend (run : Run) (edit : Edit) : (run.extend edit).image = (edit.apply run.image).2 := by
  simp [image, extend, Edit.applyAll_append, Edit.applyAll]

theorem image_finalize (run : Run) : (run.extend .finalize).image = run.image.finalize.2 := by
  rw [image_extend, Edit.apply, Outcome.snd_map]

theorem history_extend (run : Run) (edit : Edit) :
    (run.extend edit).history = run.history ++ [(edit, (edit.apply run.image).1)] := by
  -- Zipping splits at the last change because every change before it has an answer.
  have same : run.edits.length = run.answers.length := (Edit.length_applyAll _ _).symm
  have last : (run.extend edit).answers = run.answers ++ [(edit.apply run.image).1] := by
    simp [answers, image, extend, Edit.applyAll_append, Edit.applyAll]
  rw [history, last, extend, List.zip_append same]
  rfl

theorem follows_extend {rule : Image → Edit → Prop} (run : Run) (edit : Edit) :
    (run.extend edit).Follows rule ↔ run.Follows rule ∧ rule run.image edit := by
  simp [Follows, extend, Edit.followAll_append, Edit.FollowAll, image]

theorem filterMap_single {α β : Type} (f : α → Option β) (item : α) :
    [item].filterMap f = (f item).toList := by
  cases here : f item <;> simp [here]

theorem sections_extend (run : Run) (edit : Edit) : (run.extend edit).sections =
    run.sections ++ (edit.section? (edit.apply run.image).1).toList := by
  rw [sections, sections, history_extend, List.filterMap_append, ← List.append_assoc, filterMap_single]

theorem symbolNames_extend (run : Run) (edit : Edit) : (run.extend edit).symbolNames =
    run.symbolNames ++ (edit.symbol? (edit.apply run.image).1).toList := by
  rw [symbolNames, symbolNames, history_extend, List.filterMap_append, ← List.cons_append,
    filterMap_single]

/-- Induction on the number of changes, the last one split off. -/
theorem induction {motive : Run → Prop} (start : ∀ config, motive ⟨config, []⟩)
    (next : ∀ run edit, motive run → motive (run.extend edit)) (run : Run) : motive run := by
  obtain ⟨config, edits⟩ := run
  induction edits using List.reverseRecOn with
  | nil => exact start config
  | append_singleton edits edit ih => exact next ⟨config, edits⟩ edit ih

/-! ## Every run keeps the invariants -/

-- The link stands in a new image before its source does.
theorem wellFormed_tables (symtab strtab : SectionHeader) :
    SectionTable.WellFormed (SectionTable.push (SectionTable.push { links := [(1, strtabName)] }
      ⟨symtabName, symtab, []⟩) ⟨strtabName, strtab, []⟩) := by
  have distinct : symtabName ≠ strtabName := by decide
  have first : (SectionTable.push {} ⟨symtabName, symtab, []⟩).WellFormed :=
    SectionTable.wellFormed_empty.push rfl
  have second : (SectionTable.push (SectionTable.push {} ⟨symtabName, symtab, []⟩)
      ⟨strtabName, strtab, []⟩).WellFormed := by
    apply first.push
    rw [SectionTable.indexOf?_push, if_neg distinct]
    rfl
  -- From here the link is like one that is made afterwards.
  have found : (SectionTable.push (SectionTable.push {} ⟨symtabName, symtab, []⟩)
      ⟨strtabName, strtab, []⟩).indexOf? symtabName = some 1 := by
    rw [SectionTable.indexOf?_push, if_neg distinct.symm, SectionTable.indexOf?_push, if_pos rfl]
    rfl
  exact second.link found strtabName

theorem wellFormed_start (config : Config) : (Image.ofConfig config).WellFormed where
  sections := wellFormed_tables _ _
  strings := by
    refine StringTable.WellFormed.push (StringTable.WellFormed.push StringTable.wellFormed_empty ?_) ?_
    · decide
    · decide
  symbols := SymbolTable.wellFormed_empty
  symtab := rfl
  strtab := rfl
  settled := by simp [Image.ofConfig, Image.pushSection]

theorem wellFormed (run : Run) : run.image.WellFormed := by
  induction run using induction with
  | start config => exact wellFormed_start config
  | next run edit ih =>
    rw [image_extend]
    exact ih.step (Image.step_apply edit run.image)

-- What holds of new images and is kept by every change that follows a rule holds after every run
-- of such changes.
theorem invariant {holds : Image → Prop} {rule : Image → Edit → Prop}
    (start : ∀ config, holds (Image.ofConfig config))
    (kept : ∀ {image next : Image} {edit : Edit} {answer : Except Error Answer}, image.WellFormed →
      rule image edit → image.Step edit answer next → holds image → holds next)
    (run : Run) (follows : run.Follows rule) : holds run.image := by
  induction run using induction with
  | start config => exact start config
  | next run edit ih =>
    obtain ⟨before, last⟩ := (run.follows_extend edit).mp follows
    rw [image_extend]
    exact kept run.wellFormed last (Image.step_apply edit run.image) (ih before)

end Run

/-! ## What was added is what is there -/

section

variable {image next : Image} {edit : Edit} {answer : Except Error Answer}

@[simp] theorem Edit.section?_error (edit : Edit) (e : Error) : edit.section? (.error e) = none := by
  cases edit <;> rfl

@[simp] theorem Edit.symbol?_error (edit : Edit) (e : Error) : edit.symbol? (.error e) = none := by
  cases edit <;> rfl

theorem Image.Step.listing (step : image.Step edit answer next) :
    next.sections.listing = image.sections.listing ++ (edit.section? answer).toList := by
  cases step with
  | refused | refusedText => simp [reopen]
  | addedString | addedSymbol | editedHeader => simp [Edit.section?]
  | linked => simp [Edit.section?, SectionTable.listing]
  | missedSection => simp [Edit.section?, reopen]
  | addedSection name header contents =>
    simp [pushSection, SectionTable.push, SectionTable.listing, Edit.section?]
  | editedSection name f i => simp [SectionTable.listing_modify, Edit.section?]
  | finalized answer next outcome =>
    -- Whether it has succeeded or not.
    rw [(alike_of_finalize outcome).sections.listing]
    exact (List.append_nil _).symm

end

theorem Run.listing (run : Run) : run.image.sections.listing = run.sections := by
  induction run using Run.induction with
  | start config => rfl
  | next run edit ih =>
    rw [Run.image_extend, Run.sections_extend, ← ih]
    exact (Image.step_apply edit run.image).listing

end Elf64
