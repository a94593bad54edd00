import Elf64.Image.Edit
import Elf64.Proofs.Finalize
import Elf64.Proofs.Strings
import Elf64.Proofs.Symbols

/-! What one change does to an image.

`Image.Step` lists everything a change can do, with the checks that it passed; `Image.step_apply` is
the only place where changes are opened. The tables keep their invariants at each step, and an image
that counts as finalized is settled: every other change makes the headers out of date. -/

set_option autoImplicit false

namespace Elf64.Image

theorem pushSymbol_unnamed (image : Image) (symbol : Symbol) : image.pushSymbol "" symbol =
    { image with symbols := image.symbols.push "" symbol, finalSize := none } := rfl

theorem pushSymbol_named (image : Image) {name : String} (named : name ≠ "") (symbol : Symbol) :
    image.pushSymbol name symbol = { image with
      strings := image.strings.push name
      symbols := image.symbols.push name { symbol with name := .ofNat image.strings.size }
      finalSize := none } := by
  cases image
  simp only [pushSymbol, named, ↓reduceIte]

theorem pushSymbol_eq (image : Image) (name : String) (symbol : Symbol) :
    image.pushSymbol name symbol = { image with
      strings := if name = "" then image.strings else image.strings.push name
      symbols := image.symbols.push name
        (if name = "" then symbol else { symbol with name := .ofNat image.strings.size })
      finalSize := none } := by
  by_cases unnamed : name = "" <;> simp [pushSymbol, unnamed]

@[simp] theorem sections_pushSymbol (image : Image) (name : String) (symbol : Symbol) :
    (image.pushSymbol name symbol).sections = image.sections := by
  by_cases unnamed : name = ""
  · rw [unnamed, pushSymbol_unnamed]
  · rw [pushSymbol_named image unnamed]

-- A link that is refused does not make the headers out of date.
theorem link_eq (image : Image) (source target : String) : image.link source target =
    let linked := image.sections.link source target
    (linked.1, { image with
      sections := linked.2
      finalSize := if linked.1.isOk then none else image.finalSize }) := by
  simp only [link]
  rcases image.sections.link source target with ⟨e | done, sections⟩ <;> rfl

/-- The change answers this and leaves this image. -/
inductive Step (image : Image) : Edit → Except Error Answer → Image → Prop where
  | refused (edit : Edit) (e : Error) : Step image edit (.error e) image
  /-- The string table has refused a text. -/
  | refusedText (edit : Edit) (e : Error) : Step image edit (.error e) image.reopen
  | addedString (text : String) (checked : image.strings.check text = .ok ()) :
      Step image (.addString text) (.ok (.number image.strings.size))
        { image with strings := image.strings.push text, finalSize := none }
  | addedSection (name : String) (header : SectionHeader) (contents : Bytes)
      (checked : image.sections.check name header = .ok ())
      (stored : image.strings.check name = .ok ()) :
      Step image (.addSection name header contents) (.ok (.number image.sections.size))
        (image.pushSection name header contents)
  | addedSymbol (name : String) (symbol : Symbol) (checked : image.symbols.check name symbol = .ok ())
      (stored : name ≠ "" → image.strings.check name = .ok ()) :
      Step image (.addSymbol name symbol) (.ok (.number image.symbols.size)) (image.pushSymbol name symbol)
  | linked (source target : String) (i : Nat) (found : image.sections.indexOf? source = some i) :
      Step image (.link source target) (.ok .done)
        { image with
          sections := { image.sections with
            links := image.sections.links.filter (·.1 ≠ i) ++ [(i, target)] }
          finalSize := none }
  | editedHeader (f : FileHeader → FileHeader) :
      Step image (.editHeader f) (.ok .done) { image with header := f image.header, finalSize := none }
  | editedSection (name : String) (f : SectionHeader → SectionHeader) (i : Nat)
      (found : image.sections.indexOf? name = some i) :
      Step image (.editSection name f) (.ok (.found true))
        { image with sections := image.sections.modify i f, finalSize := none }
  | missedSection (name : String) (f : SectionHeader → SectionHeader)
      (missing : image.sections.indexOf? name = none) :
      Step image (.editSection name f) (.ok (.found false)) image.reopen
  | finalized (answer : Except Error Unit) (next : Image) (outcome : image.finalize = (answer, next)) :
      Step image .finalize (answer.map fun _ => .done) next

theorem step_addString (image : Image) (text : String) :
    image.Step (.addString text) ((Edit.addString text).apply image).1 ((Edit.addString text).apply image).2 := by
  simp only [Edit.apply, addString, StringTable.add]
  cases checked : image.strings.check text with
  | error e => exact .refusedText _ e
  | ok done => exact .addedString text checked

theorem step_addSection (image : Image) (name : String) (header : SectionHeader) (contents : Bytes) :
    image.Step (.addSection name header contents) ((Edit.addSection name header contents).apply image).1
      ((Edit.addSection name header contents).apply image).2 := by
  simp only [Edit.apply, addSection]
  cases checked : image.sections.check name header with
  | error e => exact .refused _ e
  | ok done =>
    dsimp only
    cases stored : image.strings.check name with
    | error e => exact .refusedText _ e
    | ok done => exact .addedSection name header contents checked stored

theorem step_addSymbol (image : Image) (name : String) (symbol : Symbol) :
    image.Step (.addSymbol name symbol) ((Edit.addSymbol name symbol).apply image).1
      ((Edit.addSymbol name symbol).apply image).2 := by
  simp only [Edit.apply, addSymbol]
  cases checked : image.symbols.check name symbol with
  | error e => exact .refused _ e
  | ok done =>
    dsimp only
    by_cases unnamed : name = ""
    · rw [if_pos unnamed]
      exact .addedSymbol name symbol checked fun named => absurd unnamed named
    · rw [if_neg unnamed]
      cases stored : image.strings.check name with
      | error e => exact .refusedText _ e
      | ok done => exact .addedSymbol name symbol checked fun _ => stored

theorem step_link (image : Image) (source target : String) :
    image.Step (.link source target) ((Edit.link source target).apply image).1
      ((Edit.link source target).apply image).2 := by
  simp only [Edit.apply, link]
  cases found : image.sections.indexOf? source with
  | none =>
    rw [SectionTable.link_of_indexOf?_eq_none found]
    exact .refused _ _
  | some i =>
    rw [SectionTable.link_of_indexOf? found]
    exact .linked source target i found

theorem step_editSection (image : Image) (name : String) (f : SectionHeader → SectionHeader) :
    image.Step (.editSection name f) ((Edit.editSection name f).apply image).1
      ((Edit.editSection name f).apply image).2 := by
  simp only [Edit.apply, editSection]
  cases found : image.sections.indexOf? name with
  | none => exact .missedSection name f found
  | some i => exact .editedSection name f i found

theorem step_finalize (image : Image) :
    image.Step .finalize (Edit.finalize.apply image).1 (Edit.finalize.apply image).2 := by
  simp only [Edit.apply]
  rcases outcome : image.finalize with ⟨e | done, next⟩
  · exact .finalized (.error e) next outcome
  · exact .finalized (.ok done) next outcome

theorem step_apply (edit : Edit) (image : Image) :
    image.Step edit (edit.apply image).1 (edit.apply image).2 := by
  cases edit with
  | addString text => exact image.step_addString text
  | addSection name header contents => exact image.step_addSection name header contents
  | addSymbol name symbol => exact image.step_addSymbol name symbol
  | link source target => exact image.step_link source target
  | editHeader f => exact .editedHeader f
  | editSection name f => exact image.step_editSection name f
  | finalize => exact image.step_finalize

/-! ## Invariants of images -/

structure WellFormed (image : Image) : Prop where
  sections : image.sections.WellFormed
  strings : image.strings.WellFormed
  symbols : image.symbols.WellFormed
  symtab : image.sections.nameOf? 1 = some symtabName
  strtab : image.sections.nameOf? 2 = some strtabName
  settled : ∀ size, image.finalSize = some size → image.Settled size

variable {image next : Image}

theorem WellFormed.indexOf?_symtab (wellFormed : image.WellFormed) :
    image.sections.indexOf? symtabName = some 1 :=
  (wellFormed.sections.indexed symtabName 1).mpr wellFormed.symtab

theorem WellFormed.indexOf?_strtab (wellFormed : image.WellFormed) :
    image.sections.indexOf? strtabName = some 2 :=
  (wellFormed.sections.indexed strtabName 2).mpr wellFormed.strtab

theorem WellFormed.of_alike (wellFormed : image.WellFormed) (alike : image.Alike next)
    (settled : ∀ size, next.finalSize = some size → next.Settled size) : next.WellFormed where
  sections := alike.sections.wellFormed wellFormed.sections
  strings := by rw [alike.strings]; exact wellFormed.strings
  symbols := by rw [alike.symbols]; exact wellFormed.symbols
  symtab := (alike.sections.nameOf? 1).trans wellFormed.symtab
  strtab := (alike.sections.nameOf? 2).trans wellFormed.strtab
  settled := settled

theorem WellFormed.reopen (wellFormed : image.WellFormed) : image.reopen.WellFormed :=
  { wellFormed with settled := by simp [Image.reopen] }

-- The new section is neither of the two tables, which were there before.
theorem WellFormed.pushSection (wellFormed : image.WellFormed) {name : String} {header : SectionHeader}
    {contents : Bytes} (checked : image.sections.check name header = .ok ())
    (stored : image.strings.check name = .ok ()) :
    (image.pushSection name header contents).WellFormed where
  sections := wellFormed.sections.push (SectionTable.check_eq_ok checked).1
  strings := wellFormed.strings.push (StringTable.check_eq_ok stored).1
  symbols := wellFormed.symbols
  symtab := by
    have bound := SectionTable.lt_size_of_nameOf? wellFormed.symtab
    exact (SectionTable.nameOf?_push _ _ 1).trans ((if_neg (Nat.ne_of_lt bound)).trans wellFormed.symtab)
  strtab := by
    have bound := SectionTable.lt_size_of_nameOf? wellFormed.strtab
    exact (SectionTable.nameOf?_push _ _ 2).trans ((if_neg (Nat.ne_of_lt bound)).trans wellFormed.strtab)
  settled := by simp [Image.pushSection]

theorem WellFormed.pushSymbol (wellFormed : image.WellFormed) {name : String} {symbol : Symbol}
    (checked : image.symbols.check name symbol = .ok ())
    (stored : name ≠ "" → image.strings.check name = .ok ()) :
    (image.pushSymbol name symbol).WellFormed := by
  obtain ⟨valid, ordered⟩ := SymbolTable.check_eq_ok checked
  by_cases unnamed : name = ""
  · subst unnamed
    rw [pushSymbol_unnamed]
    exact { wellFormed with
      symbols := wellFormed.symbols.push valid ordered ""
      settled := by simp }
  · -- The offset of the name is none of the fields that the symbol table looks at.
    rw [pushSymbol_named image unnamed]
    exact { wellFormed with
      strings := wellFormed.strings.push (StringTable.check_eq_ok (stored unnamed)).1
      symbols := by
        apply wellFormed.symbols.push
        · exact valid
        · exact ordered
      settled := by simp }

theorem WellFormed.step (wellFormed : image.WellFormed) {edit : Edit} {answer : Except Error Answer}
    (step : image.Step edit answer next) : next.WellFormed := by
  cases step with
  | refused => exact wellFormed
  | refusedText => exact wellFormed.reopen
  | addedString text checked =>
    exact { wellFormed with
      strings := wellFormed.strings.push (StringTable.check_eq_ok checked).1
      settled := by simp }
  | addedSection name header contents checked stored => exact wellFormed.pushSection checked stored
  | addedSymbol name symbol checked stored => exact wellFormed.pushSymbol checked stored
  | linked source target i found =>
    exact { wellFormed with
      sections := wellFormed.sections.link found target
      settled := by simp }
  | editedHeader => exact { wellFormed with settled := by simp }
  | editedSection name f i found =>
    exact { wellFormed with
      sections := SectionTable.wellFormed_modify wellFormed.sections
      symtab := (SectionTable.nameOf?_modify 1).trans wellFormed.symtab
      strtab := (SectionTable.nameOf?_modify 2).trans wellFormed.strtab
      settled := by simp }
  | missedSection => exact wellFormed.reopen
  | finalized answer next outcome =>
    refine wellFormed.of_alike (alike_of_finalize outcome) fun size same => ?_
    cases answer with
    | error e =>
      rw [finalSize_of_failed outcome] at same
      contradiction
    | ok done =>
      -- The size that the image has is the one that it was settled with.
      obtain ⟨size', settled⟩ := settled_of_finalize wellFormed.sections outcome
      obtain rfl := Option.some.inj (settled.finalSize.symm.trans same)
      exact settled

end Elf64.Image
