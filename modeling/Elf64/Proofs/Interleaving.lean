import Elf64.Proofs.Kinds
import Elf64.Proofs.Reader

/-! Additions in another order.

Additions of different kinds can be made in any order among each other: they answer the same, finalizing
answers the same, and the images are the same in the end except for the string table and for the offsets
that lead into it (`Run.interleavings`). -/

set_option autoImplicit false

namespace Elf64

/-- A list that consists of three others, each in its own order. -/
inductive Interleaved {α : Type} : List α → List α → List α → List α → Prop where
  | nil : Interleaved [] [] [] []
  | first {a b c all : List α} (item : α) (rest : Interleaved a b c all) :
      Interleaved (item :: a) b c (item :: all)
  | second {a b c all : List α} (item : α) (rest : Interleaved a b c all) :
      Interleaved a (item :: b) c (item :: all)
  | third {a b c all : List α} (item : α) (rest : Interleaved a b c all) :
      Interleaved a b (item :: c) (item :: all)

namespace Edit

/-- The changes are additions of this kind. -/
def AllOf (kind : Kind) (edits : List Edit) : Prop := ∀ edit ∈ edits, edit.kind? = some kind

variable {kind : Kind} {sections symbols texts edits : List Edit}

theorem AllOf.tail {edit : Edit} {rest : List Edit} (all : AllOf kind (edit :: rest)) : AllOf kind rest :=
  fun other member => all other (List.mem_cons_of_mem edit member)

theorem AllOf.head {edit : Edit} {rest : List Edit} (all : AllOf kind (edit :: rest)) :
    edit.kind? = some kind :=
  all edit List.mem_cons_self

-- The three lists can be told from the one that they make up.
theorem filter_interleaved (interleaved : Interleaved sections symbols texts edits)
    (first : AllOf .sections sections) (second : AllOf .symbols symbols) (third : AllOf .texts texts)
    (kind : Kind) : edits.filter (fun edit => edit.kind? = some kind) =
      match kind with
      | .sections => sections
      | .symbols => symbols
      | .texts => texts := by
  induction interleaved with
  | nil => cases kind <;> rfl
  | first item rest ih => cases kind <;> simp [first.head, ih first.tail second third]
  | second item rest ih => cases kind <;> simp [second.head, ih first second.tail third]
  | third item rest ih => cases kind <;> simp [third.head, ih first second third.tail]

theorem additions_of_interleaved (interleaved : Interleaved sections symbols texts edits)
    (first : AllOf .sections sections) (second : AllOf .symbols symbols) (third : AllOf .texts texts) :
    ∀ edit ∈ edits, edit.kind?.isSome := by
  induction interleaved with
  | nil => simp
  | first item rest ih => simpa [first.head] using ih first.tail second third
  | second item rest ih => simpa [second.head] using ih first second.tail third
  | third item rest ih => simpa [third.head] using ih first second third.tail

-- Every addition is of one of the kinds.
theorem totalRoom_by_kind {replies : List (Edit × Except Error Answer)}
    (additions : ∀ entry ∈ replies, entry.1.kind?.isSome) : totalRoom replies =
      totalRoom (replies.filter fun entry => entry.1.kind? = some .sections) +
        totalRoom (replies.filter fun entry => entry.1.kind? = some .symbols) +
        totalRoom (replies.filter fun entry => entry.1.kind? = some .texts) := by
  induction replies with
  | nil => rfl
  | cons entry rest ih =>
    obtain ⟨here, later⟩ := List.forall_mem_cons.mp additions
    have sum := ih later
    obtain ⟨kind, found⟩ := Option.isSome_iff_exists.mp here
    cases kind <;> simp [found, totalRoom] at sum ⊢ <;> omega

theorem keepsNames_of_addition (image : Image) (edit : Edit) (addition : edit.kind?.isSome) :
    edit.KeepsNames image := by
  cases edit with
  | editSection => contradiction
  | addSection | addSymbol | addString | link | editHeader | finalize => trivial

theorem symbol?_plain (edit : Edit) (answer : Except Error Answer) :
    edit.symbol? (edit.plain answer) = edit.symbol? answer := by
  cases edit <;> cases answer <;> rfl

theorem symbol?_of_kind?_ne {edit : Edit} (apart : edit.kind? ≠ some .symbols)
    (answer : Except Error Answer) : edit.symbol? answer = none := by
  cases edit with
  | addSymbol => contradiction
  | addSection | addString | link | editHeader | editSection | finalize => rfl

end Edit

/-! ## What the order does not change -/

namespace Image

/-- The images are the same but for the string tables and the offsets at which names are found. -/
structure SameButNames (old new : Image) : Prop where
  header : new.header = old.header
  finalSize : new.finalSize = old.finalSize
  headers : ∀ i, (new.sections.get? i).map SectionHeader.nameless =
    (old.sections.get? i).map SectionHeader.nameless
  names : ∀ i, new.sections.nameOf? i = old.sections.nameOf? i
  symbols : ∀ i, (new.symbols.get? i).map Symbol.nameless = (old.symbols.get? i).map Symbol.nameless

theorem sameButNames_of_nameless {old new : Image}
    (same : View.nameless.image new = View.nameless.image old) : old.SameButNames new := by
  obtain ⟨header, sections, -, symbols, finalSize⟩ := View.image_eq_iff.mp same
  have entries := (View.sections_eq_iff.mp sections).1
  have added : new.symbols.added.toList.map Symbol.nameless = old.symbols.added.toList.map Symbol.nameless :=
    (View.symbols_eq_iff.mp symbols).1
  refine ⟨header, finalSize, fun i => ?_, fun i => ?_, fun i => ?_⟩
  · cases i with
    | zero => rfl
    | succ i =>
      have headers := map_of_map (fun a b same => (Section.mk.inj same).2.1) entries
      simpa [SectionTable.get?, Function.comp_def] using congrArg (fun shown => shown[i]?) headers
  · cases i with
    | zero => rfl
    | succ i =>
      have names := map_of_map (fun a b same => (Section.mk.inj same).1) entries
      simpa [SectionTable.nameOf?] using congrArg (fun shown => shown[i]?) names
  · cases i with
    | zero => rfl
    | succ i => simpa [SymbolTable.get?] using congrArg (fun shown => shown[i]?) added

-- No addition changes the file header, and none makes an image count as finalized.
theorem Step.untouched {image next : Image} {edit : Edit} {answer : Except Error Answer}
    (step : image.Step edit answer next) (addition : edit.kind?.isSome) :
    next.header = image.header ∧ (image.finalSize = none → next.finalSize = none) := by
  cases step with
  | refused => exact ⟨rfl, id⟩
  | refusedText | addedString | addedSection | linked => exact ⟨rfl, fun _ => rfl⟩
  | addedSymbol name symbol =>
    rw [pushSymbol_eq]
    exact ⟨rfl, fun _ => rfl⟩
  | editedHeader | editedSection | missedSection | finalized => contradiction

end Image

namespace Run

/-- The names of sections, and those that symbols were added under, are found where the headers and the
symbols say. -/
structure Resolves (run : Run) (image : Image) : Prop where
  sections : ∀ i name, image.sections.nameOf? i = some name → ∃ header,
    image.sections.get? i = some header ∧ image.strings.get? header.name.toNat = some name
  symbols : ∀ i name, run.symbolNames[i]? = some name → name ≠ "" → ∃ symbol,
    image.symbols.get? i = some symbol ∧ image.strings.get? symbol.name.toNat = some name

variable {run first second : Run}

theorem strings_size_by_kind (adds : run.OnlyAdds) : run.image.strings.size =
    (Image.ofConfig run.config).strings.size + (Edit.totalRoom (run.repliesOf .sections) +
      Edit.totalRoom (run.repliesOf .symbols) + Edit.totalRoom (run.repliesOf .texts)) := by
  have additions : ∀ entry ∈ run.replies, entry.1.kind?.isSome := by
    intro entry member
    obtain ⟨⟨edit, answer⟩, told, rfl⟩ := List.mem_map.mp member
    exact adds edit (List.of_mem_zip told).1
  rw [strings_size, Edit.totalRoom_by_kind additions]
  rfl

theorem untouched (adds : run.OnlyAdds) :
    run.image.header = (Image.ofConfig run.config).header ∧ run.image.finalSize = none := by
  induction run using induction with
  | start config => exact ⟨rfl, rfl⟩
  | next run edit ih =>
    obtain ⟨before, last⟩ := onlyAdds_extend.mp adds
    obtain ⟨header, finalSize⟩ := ih before
    obtain ⟨same, opened⟩ := (Image.step_apply edit run.image).untouched last
    rw [image_extend]
    exact ⟨same.trans header, opened finalSize⟩

theorem follows_of_additions {rule : Image → Edit → Prop}
    (allowed : ∀ image edit, edit.kind?.isSome → rule image edit) (adds : run.OnlyAdds) :
    run.Follows rule := by
  induction run using induction with
  | start config => trivial
  | next run edit ih =>
    obtain ⟨before, last⟩ := onlyAdds_extend.mp adds
    exact (run.follows_extend edit).mpr ⟨ih before, allowed run.image edit last⟩

theorem resolves (adds : run.OnlyAdds) : run.Resolves run.image.finalize.2 := by
  rw [← image_finalize]
  have names : (run.extend .finalize).symbolNames = run.symbolNames := by
    rw [symbolNames_extend]
    exact List.append_nil _
  have named := (run.extend .finalize).namesSections <|
    (run.follows_extend .finalize).mpr ⟨follows_of_additions Edit.keepsNames_of_addition adds, trivial⟩
  constructor
  · intro i name here
    cases i with
    | zero => contradiction
    | succ i =>
      rw [SectionTable.nameOf?_listing, listing, List.getElem?_map, Option.map_eq_some_iff] at here
      obtain ⟨⟨name, given⟩, listed, rfl⟩ := here
      obtain ⟨header, found, stored⟩ := (run.extend .finalize).section_named named listed
      exact ⟨header, found, StringTable.get?_eq_some_iff.mpr stored⟩
  · intro i name listed nonempty
    rw [← names] at listed
    obtain ⟨symbol, found, stored⟩ := (run.extend .finalize).symbol_named listed nonempty
    exact ⟨symbol, found, StringTable.get?_eq_some_iff.mpr stored⟩

theorem symbolNames_eq (run : Run) : run.symbolNames =
    "" :: (run.repliesOf .symbols).filterMap fun entry => entry.1.symbol? entry.2 := by
  simp only [symbolNames, repliesOf, replies, List.filter_map, List.filterMap_map, List.filterMap_filter]
  congr 2
  funext entry
  by_cases here : entry.1.kind? = some .symbols
  · simp [here, Edit.symbol?_plain]
  · simp [here, Edit.symbol?_of_kind?_ne here]

-- The header is the one that both have started with, and the string tables have the same size.
theorem nameless_interleaved (config : first.config = second.config) (adds : first.OnlyAdds)
    (adds' : second.OnlyAdds) (replies : ∀ kind, second.repliesOf kind = first.repliesOf kind)
    (alike : ∀ kind : Edit.Kind, kind.Alike first.image second.image) :
    View.nameless.image second.image = View.nameless.image first.image := by
  obtain ⟨header, finalSize⟩ := untouched adds
  obtain ⟨header', finalSize'⟩ := untouched adds'
  have sizes : second.image.strings.size = first.image.strings.size := by
    rw [strings_size_by_kind adds, strings_size_by_kind adds', replies, replies, replies, config]
  refine View.image_eq_iff.mpr ⟨?_, alike .sections, ?_, alike .symbols, finalSize'.trans finalSize.symm⟩
  · exact header'.trans (config ▸ header.symm)
  · exact congrArg (fun size => { size : StringTable }) sizes

/-- In whatever order sections, symbols and texts are added, if each kind for itself is added in the same
order: the additions answer the same but for offsets of texts, finalizing answers the same, and the
images that it leaves are the same except that names are found in other places. -/
theorem interleavings {sections symbols texts : List Edit} (config : first.config = second.config)
    (ofSections : Edit.AllOf .sections sections) (ofSymbols : Edit.AllOf .symbols symbols)
    (ofTexts : Edit.AllOf .texts texts) (one : Interleaved sections symbols texts first.edits)
    (other : Interleaved sections symbols texts second.edits)
    (small : first.image.strings.size < 0x100000000)
    (small' : second.image.strings.size < 0x100000000) :
    (∀ kind, second.repliesOf kind = first.repliesOf kind) ∧
      second.image.finalize.1 = first.image.finalize.1 ∧
      first.image.finalize.2.SameButNames second.image.finalize.2 ∧
      second.symbolNames = first.symbolNames ∧
      first.Resolves first.image.finalize.2 ∧ second.Resolves second.image.finalize.2 := by
  have adds : first.OnlyAdds := Edit.additions_of_interleaved one ofSections ofSymbols ofTexts
  have adds' : second.OnlyAdds := Edit.additions_of_interleaved other ofSections ofSymbols ofTexts
  have only (kind : Edit.Kind) : second.only kind = first.only kind := by
    simp only [Run.only, ← config, Edit.filter_interleaved one ofSections ofSymbols ofTexts,
      Edit.filter_interleaved other ofSections ofSymbols ofTexts]
  have replies (kind : Edit.Kind) : second.repliesOf kind = first.repliesOf kind := by
    rw [← (first.only_agrees kind adds small).1, ← (second.only_agrees kind adds' small').1, only]
  have alike (kind : Edit.Kind) : kind.Alike first.image second.image := by
    have middle := (second.only_agrees kind adds' small').2
    rw [only] at middle
    exact (first.only_agrees kind adds small).2.symm.trans middle
  have same := nameless_interleaved config adds adds' replies alike
  obtain ⟨answer, left⟩ := View.nameless.finalize _ _ same
  refine ⟨replies, answer, Image.sameButNames_of_nameless left, ?_, resolves adds, resolves adds'⟩
  rw [symbolNames_eq, symbolNames_eq, replies]

def someSections : List Edit := [
  .addSection ".text" { type := .progBits, addralign := 16 } [0x90, 0xc3],
  .link ".text" ".data",
  .addSection ".data" { type := .progBits } [1, 2, 3]]

-- The second name is in use.
def someSymbols : List Edit := [
  .addSymbol "main" { info := 0x12, definedIn := .index 3 },
  .addSymbol "main" { info := 0x12, definedIn := .index 4 },
  .addSymbol "table" { info := 0x11, definedIn := .index 4 }]

def someTexts : List Edit := [.addString "first", .addString "second"]

def grouped : Run where
  edits := someSections ++ someSymbols ++ someTexts

def shuffled : Run where
  edits := [someTexts[0], someSymbols[0], someSymbols[1], someSections[0], someSections[1], someTexts[1],
    someSymbols[2], someSections[2]]

theorem interleaved_grouped : Interleaved someSections someSymbols someTexts grouped.edits :=
  .first _ <| .first _ <| .first _ <| .second _ <| .second _ <| .second _ <| .third _ <| .third _ .nil

theorem interleaved_shuffled : Interleaved someSections someSymbols someTexts shuffled.edits :=
  .third _ <| .second _ <| .second _ <| .first _ <| .first _ <| .third _ <| .second _ <| .first _ .nil

theorem shuffled_interleavings : Interleaved someSections someSymbols someTexts grouped.edits ∧
    Interleaved someSections someSymbols someTexts shuffled.edits ∧
    shuffled.image.strings ≠ grouped.image.strings ∧ grouped.image.finalize.1 = .ok () ∧
    shuffled.image.finalize.1 = grouped.image.finalize.1 ∧
    grouped.image.finalize.2.SameButNames shuffled.image.finalize.2 ∧
    grouped.Resolves grouped.image.finalize.2 ∧ shuffled.Resolves shuffled.image.finalize.2 := by
  have config : grouped.config = shuffled.config := rfl
  have ofSections : Edit.AllOf .sections someSections := by simp [Edit.AllOf, someSections, Edit.kind?]
  have ofSymbols : Edit.AllOf .symbols someSymbols := by simp [Edit.AllOf, someSymbols, Edit.kind?]
  have ofTexts : Edit.AllOf .texts someTexts := by simp [Edit.AllOf, someTexts, Edit.kind?]
  obtain ⟨-, answer, images, -, resolves, resolves'⟩ := interleavings config ofSections ofSymbols ofTexts
    interleaved_grouped interleaved_shuffled (by decide +kernel) (by decide +kernel)
  exact ⟨interleaved_grouped, interleaved_shuffled, by decide +kernel, by decide +kernel, answer, images,
    resolves, resolves'⟩

end Run

end Elf64
