import Elf64.Proofs.Acceptance
import Elf64.Proofs.Serialization

/-! Adding strings, sections, symbols and links.

What has been added before decides whether an addition is admitted (`Edit.Admits`). One that is
admitted does what the rule says and nothing else, and one that is not admitted leaves the tables as
they are (`Run.additions`). -/

set_option autoImplicit false

namespace Elf64

/-! ## One table after the other -/

namespace Image

/-- Stores a section behind its name. The table checks the section again. -/
def storeSection (image : Image) (name : String) (header : SectionHeader) (contents : Bytes)
    (offset : Nat) : Outcome Image Nat :=
  match image.sections.add ⟨name, { header with name := .ofNat offset }, contents⟩ with
  | (answer, sections) => (answer, { image with sections })

/-- Stores a symbol behind its name. The table checks the symbol again. -/
def storeSymbol (image : Image) (name : String) (symbol : Symbol) : Outcome Image Nat :=
  match image.symbols.add name symbol with
  | (answer, symbols) => (answer, { image with symbols })

variable {image : Image} {name : String}

-- The offset is no field that the check looks at.
theorem storeSection_of_check {header : SectionHeader} {contents : Bytes} {offset : Nat}
    (checked : image.sections.check name header = .ok ()) : image.storeSection name header contents offset =
      (.ok image.sections.size, { image with
        sections := image.sections.push ⟨name, { header with name := .ofNat offset }, contents⟩ }) := by
  have again : image.sections.check name { header with name := .ofNat offset } = .ok () := checked
  simp only [storeSection, SectionTable.add, again]

theorem storeSymbol_of_check {symbol : Symbol} (checked : image.symbols.check name symbol = .ok ()) :
    image.storeSymbol name symbol =
      (.ok image.symbols.size, { image with symbols := image.symbols.push name symbol }) := by
  simp only [storeSymbol, SymbolTable.add, checked]

theorem addString_of_check {text : String} (checked : image.strings.check text = .ok ()) :
    image.addString text =
      (.ok image.strings.size, { image with strings := image.strings.push text, finalSize := none }) := by
  simp only [addString, StringTable.add, checked]

theorem addString_of_refused {text : String} {e : Error} (refused : image.strings.check text = .error e) :
    image.addString text = (.error e, image.reopen) := by
  simp only [addString, StringTable.add, refused]
  rfl

theorem addSection_of_check {header : SectionHeader} (checked : image.sections.check name header = .ok ())
    (stored : image.strings.check name = .ok ()) (contents : Bytes) :
    image.addSection name header contents =
      (.ok image.sections.size, image.pushSection name header contents) := by
  simp only [addSection, checked, stored]

end Image

/-- The same change, made in the tables one after the other, each with its own check. -/
def Edit.applyByTables (edit : Edit) (image : Image) : Outcome Image Answer :=
  match edit with
  | addSection name header contents =>
    Outcome.map .number <|
      Outcome.andThen (image.sections.check name header, image) fun _ image =>
      Outcome.andThen (image.addString name) fun offset image =>
        image.storeSection name header contents offset
  | addSymbol name symbol =>
    Outcome.map .number <|
      Outcome.andThen (image.symbols.check name symbol, image) fun _ image =>
      if name = "" then image.reopen.storeSymbol name symbol
      else
        Outcome.andThen (image.addString name) fun offset image =>
          image.storeSymbol name { symbol with name := .ofNat offset }
  | edit => edit.apply image

-- Storing the text changes nothing that the second check looks at, so that it passes like the first.
theorem Edit.applyByTables_eq (edit : Edit) (image : Image) :
    edit.applyByTables image = edit.apply image := by
  cases edit with
  | addString | link | editHeader | editSection | finalize => rfl
  | addSection name header contents =>
    simp only [applyByTables, apply, Image.addSection]
    cases checked : image.sections.check name header with
    | error e => rfl
    | ok done =>
      rw [Outcome.andThen_ok]
      cases stored : image.strings.check name with
      | error e => rw [Image.addString_of_refused stored, Outcome.andThen_error]
      | ok done =>
        rw [Image.addString_of_check stored, Outcome.andThen_ok]
        exact congrArg (Outcome.map Answer.number) (Image.storeSection_of_check checked)
  | addSymbol name symbol =>
    simp only [applyByTables, apply, Image.addSymbol]
    cases checked : image.symbols.check name symbol with
    | error e => rfl
    | ok done =>
      rw [Outcome.andThen_ok]
      by_cases unnamed : name = ""
      · subst unnamed
        rw [if_pos rfl, if_pos rfl]
        exact congrArg (Outcome.map Answer.number) (Image.storeSymbol_of_check checked)
      · rw [if_neg unnamed, if_neg unnamed]
        cases stored : image.strings.check name with
        | error e => rw [Image.addString_of_refused stored, Outcome.andThen_error]
        | ok done =>
          rw [Image.addString_of_check stored, Outcome.andThen_ok, Image.pushSymbol_named image unnamed]
          exact congrArg (Outcome.map Answer.number) (Image.storeSymbol_of_check checked)

/-! ## The rules of addition -/

def Edit.isAddition : Edit → Bool
  | addString _ | addSection _ _ _ | addSymbol _ _ | link _ _ => true
  | editHeader _ | editSection _ _ | finalize => false

/-- What an addition answers and puts into the tables, at most one item into each. -/
structure Addition where
  answer : Answer
  text : Option String := none
  entry : Option Section := none
  /-- A symbol and the name that it is added under. -/
  symbol : Option (String × Symbol) := none
  link : Option (Nat × String) := none

/-- The additions that are admitted after a run. A text that is stored gets the next free offset. -/
inductive Edit.Admits (run : Run) (offset : UInt32) : Edit → Addition → Prop where
  | text (text : String) (closed : 0 ∉ utf8 text) : Admits run offset (.addString text) {
      answer := .number run.image.strings.size
      text := some text }
  | entry (name : String) (header : SectionHeader) (contents : Bytes)
      (unused : name ∉ run.sections.map Prod.fst) (valid : header.validate = .ok ())
      (closed : 0 ∉ utf8 name) : Admits run offset (.addSection name header contents) {
      answer := .number run.image.sections.size
      text := some name
      entry := some ⟨name, { header with name := offset }, contents⟩ }
  | symbol (name : String) (symbol : Symbol) (unused : name = "" ∨ name ∉ run.symbolNames)
      (place : symbol.definedIn.check = .ok ())
      (ordered : symbol.binding = .localOnly →
        ∀ other ∈ run.image.symbols.symbols, other.binding = .localOnly)
      (closed : 0 ∉ utf8 name) : Admits run offset (.addSymbol name symbol) {
      answer := .number run.image.symbols.size
      text := if name = "" then none else some name
      symbol := some (name, if name = "" then symbol else { symbol with name := offset }) }
  | link (i : Nat) (source target : String) (known : (run.sections.map Prod.fst)[i]? = some source) :
      Admits run offset (.link source target) {
      answer := .done
      link := some (i + 1, target) }

/-- The tables have what an addition puts into them, behind everything that was there, and the headers
count as out of date. -/
structure Image.Grown (old : Image) (addition : Addition) (new : Image) : Prop where
  header : new.header = old.header
  texts : new.strings.texts = old.strings.texts ++ addition.text.toList
  textsSize : new.strings.size = old.strings.size + (addition.text.map StringTable.room).getD 0
  sections : new.sections.added.toList = old.sections.added.toList ++ addition.entry.toList
  sectionIndex : ∀ name, new.sections.indexOf? name =
    if addition.entry.map Section.name = some name then some old.sections.size
    else old.sections.indexOf? name
  /-- An older link of the same section is dropped. -/
  links : new.sections.links = match addition.link with
    | none => old.sections.links
    | some link => old.sections.links.filter (·.1 ≠ link.1) ++ [link]
  symbols : new.symbols.symbols = old.symbols.symbols ++ (addition.symbol.map Prod.snd).toList
  symbolIndex : ∀ name, new.symbols.indexOf? name =
    if name ≠ "" ∧ addition.symbol.map Prod.fst = some name then some old.symbols.size
    else old.symbols.indexOf? name
  firstGlobal : new.symbols.firstGlobal = old.symbols.firstGlobal +
    if addition.symbol.map (·.2.binding) = some .localOnly then 1 else 0
  finalSize : new.finalSize = none

namespace Image

theorem grown_addString (image : Image) (text : String) (answer : Answer) :
    image.Grown { answer, text := some text }
      { image with strings := image.strings.push text, finalSize := none } where
  header := rfl
  texts := image.strings.texts_push text
  textsSize := rfl
  sections := (List.append_nil _).symm
  sectionIndex other := rfl
  links := rfl
  symbols := (List.append_nil _).symm
  symbolIndex other := by simp
  firstGlobal := rfl
  finalSize := rfl

theorem grown_link (image : Image) (i : Nat) (target : String) :
    image.Grown { answer := .done, link := some (i, target) } { image with
      sections := { image.sections with
        links := image.sections.links.filter (·.1 ≠ i) ++ [(i, target)] }
      finalSize := none } where
  header := rfl
  texts := (List.append_nil _).symm
  textsSize := rfl
  sections := (List.append_nil _).symm
  sectionIndex other := rfl
  links := rfl
  symbols := (List.append_nil _).symm
  symbolIndex other := by simp
  firstGlobal := rfl
  finalSize := rfl

theorem grown_pushSection (image : Image) (name : String) (header : SectionHeader) (contents : Bytes)
    (answer : Answer) : image.Grown {
      answer
      text := some name
      entry := some ⟨name, { header with name := .ofNat image.strings.size }, contents⟩ }
    (image.pushSection name header contents) where
  header := rfl
  texts := image.strings.texts_push name
  textsSize := rfl
  sections := by simp [pushSection, SectionTable.push]
  sectionIndex other := by
    simp only [Option.map_some, Option.some.injEq]
    exact SectionTable.indexOf?_push _ _ other
  links := rfl
  symbols := (List.append_nil _).symm
  symbolIndex other := by simp [pushSection]
  firstGlobal := rfl
  finalSize := rfl

theorem grown_pushSymbol (image : Image) (name : String) (symbol : Symbol) (answer : Answer) :
    image.Grown {
      answer
      text := if name = "" then none else some name
      symbol := some
        (name, if name = "" then symbol else { symbol with name := .ofNat image.strings.size }) }
    (image.pushSymbol name symbol) := by
  rw [pushSymbol_eq]
  exact {
    header := rfl
    texts := by by_cases unnamed : name = "" <;> simp [unnamed]
    textsSize := by by_cases unnamed : name = "" <;> simp [unnamed]
    sections := (List.append_nil _).symm
    sectionIndex := fun other => rfl
    links := rfl
    symbols := image.symbols.symbols_push name _
    symbolIndex := fun other => by
      rw [SymbolTable.indexOf?_push]
      by_cases same : name = other <;> simp [same]
    firstGlobal := by
      simp only [SymbolTable.firstGlobal, SymbolTable.locals_push, Option.map_some, Option.some.injEq]
      split <;> split <;> rfl
    finalSize := rfl }

theorem Step.tables_of_refused {image next : Image} {edit : Edit} {e : Error}
    (step : image.Step edit (.error e) next) (addition : edit.isAddition) :
    ∃ finalSize, next = { image with finalSize } := by
  generalize answered : Except.error e = answer at step
  cases step with
  | refused => exact ⟨image.finalSize, rfl⟩
  | refusedText => exact ⟨none, rfl⟩
  | finalized => contradiction
  | addedString | addedSection | addedSymbol | linked | editedHeader | editedSection | missedSection =>
    contradiction

end Image

namespace Run

variable {run : Run} {edit : Edit}

theorem admits_of_step {answer : Answer} {next : Image} (step : run.image.Step edit (.ok answer) next)
    (adds : edit.isAddition) :
    ∃ addition, edit.Admits run (.ofNat run.image.strings.size) addition ∧ answer = addition.answer ∧
      run.image.Grown addition next := by
  generalize answered : Except.ok answer = outcome at step
  cases step with
  | refused | refusedText | editedHeader | editedSection | missedSection | finalized => contradiction
  | addedString text checked =>
    obtain rfl := Except.ok.inj answered
    refine ⟨_, .text text (StringTable.check_eq_ok checked).1, rfl, ?_⟩
    exact run.image.grown_addString text _
  | addedSection name header contents checked stored =>
    obtain rfl := Except.ok.inj answered
    obtain ⟨unused, valid⟩ := SectionTable.check_eq_ok checked
    refine ⟨_, .entry name header contents ((run.indexOf?_section_eq_none_iff name).mp unused) valid
      (StringTable.check_eq_ok stored).1, rfl, run.image.grown_pushSection name header contents _⟩
  | addedSymbol name symbol checked stored =>
    obtain rfl := Except.ok.inj answered
    obtain ⟨unused, place, ordered⟩ := SymbolTable.check_eq_ok_iff.mp checked
    rw [run.wellFormed.symbols.size_le_locals_iff] at ordered
    rw [run.unusedSymbol_iff] at unused
    refine ⟨_, .symbol name symbol unused place ordered ?_, rfl,
      run.image.grown_pushSymbol name symbol _⟩
    by_cases unnamed : name = ""
    · rw [unnamed]
      decide
    · exact (StringTable.check_eq_ok (stored unnamed)).1
  | linked source target i found =>
    obtain rfl := Except.ok.inj answered
    have named := (run.wellFormed.sections.indexed source i).mp found
    cases i with
    | zero => contradiction
    | succ i =>
      rw [SectionTable.nameOf?_listing, run.listing] at named
      exact ⟨_, .link i source target named, rfl, run.image.grown_link (i + 1) target⟩

theorem accepted_of_admits {offset : UInt32} (small : run.image.strings.size < 0x100000000)
    {addition : Addition} (admitted : edit.Admits run offset addition) :
    ∃ answer, (edit.apply run.image).1 = .ok answer := by
  cases admitted with
  | text text closed =>
    refine ⟨.number run.image.strings.size, ?_⟩
    rw [Edit.apply, Image.addString_of_check (StringTable.check_eq_ok_iff.mpr ⟨closed, small⟩)]
    rfl
  | entry name header contents unused valid closed =>
    have missing := (run.indexOf?_section_eq_none_iff name).mpr unused
    refine ⟨.number run.image.sections.size, ?_⟩
    rw [Edit.apply, Image.addSection_of_check (SectionTable.check_eq_ok_iff.mpr ⟨missing, valid⟩)
      (StringTable.check_eq_ok_iff.mpr ⟨closed, small⟩)]
    rfl
  | symbol name symbol unused place ordered closed =>
    rw [← run.unusedSymbol_iff] at unused
    rw [← run.wellFormed.symbols.size_le_locals_iff] at ordered
    refine ⟨.number run.image.symbols.size, ?_⟩
    simp only [Edit.apply, Image.addSymbol, SymbolTable.check_eq_ok_iff.mpr ⟨unused, place, ordered⟩,
      StringTable.check_eq_ok_iff.mpr ⟨closed, small⟩, ite_self]
    rfl
  | link i source target known =>
    rw [← run.listing, ← SectionTable.nameOf?_listing, ← run.wellFormed.sections.indexed] at known
    refine ⟨.done, ?_⟩
    simp only [Edit.apply, Image.link, SectionTable.link_of_indexOf? known]
    rfl

/-- While offsets of texts fit a word, an addition succeeds exactly when it is admitted. It has no
effect but the one of its rule, and if it fails, it has no effect on the tables. -/
theorem additions (run : Run) (small : run.image.strings.size < 0x100000000) :
    ∃ offset : UInt32, offset.toNat = run.image.strings.size ∧ ∀ edit : Edit, edit.isAddition →
      edit.applyByTables run.image = edit.apply run.image ∧
      ((∃ addition, edit.Admits run offset addition ∧
          (edit.apply run.image).1 = .ok addition.answer ∧
          run.image.Grown addition (edit.apply run.image).2) ∨
        (∀ addition, ¬ edit.Admits run offset addition) ∧
          ∃ e finalSize, edit.apply run.image = (.error e, { run.image with finalSize })) := by
  refine ⟨.ofNat run.image.strings.size, UInt32.toNat_ofNat_of_lt' small, fun edit adds => ?_⟩
  refine ⟨edit.applyByTables_eq run.image, ?_⟩
  have step := Image.step_apply edit run.image
  cases answered : (edit.apply run.image).1 with
  | ok answer =>
    rw [answered] at step
    obtain ⟨addition, admitted, rfl, grown⟩ := admits_of_step step adds
    exact .inl ⟨addition, admitted, rfl, grown⟩
  | error e =>
    rw [answered] at step
    refine .inr ⟨fun addition admitted => ?_, e, ?_⟩
    · obtain ⟨answer, accepted⟩ := accepted_of_admits small admitted
      rw [answered] at accepted
      contradiction
    · obtain ⟨finalSize, same⟩ := step.tables_of_refused adds
      exact ⟨finalSize, Prod.ext answered same⟩

theorem sample_additions : sample.image.strings.size < 0x100000000 ∧ ∃ offset : UInt32,
    sample.image.Grown {
      answer := .number 5
      text := some ".data"
      entry := some ⟨".data", { type := .progBits, name := offset }, [1, 2, 3]⟩ }
    ((Edit.addSection ".data" { type := .progBits } [1, 2, 3]).apply sample.image).2 := by
  have small : sample.image.strings.size < 0x100000000 := by decide +kernel
  obtain ⟨offset, -, rules⟩ := additions sample small
  refine ⟨small, offset, ?_⟩
  have admitted : Edit.Admits sample offset (.addSection ".data" { type := .progBits } [1, 2, 3]) _ :=
    .entry ".data" { type := .progBits } [1, 2, 3] (by decide +kernel) rfl (by decide)
  obtain ⟨-, ⟨addition, same, answer, grown⟩ | ⟨refused, -⟩⟩ :=
    rules (.addSection ".data" { type := .progBits } [1, 2, 3]) rfl
  · cases same
    exact grown
  · exact absurd admitted (refused _)

end Run

end Elf64
