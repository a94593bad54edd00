import Mathlib.Data.List.Forall2
import Mathlib.Data.List.Nodup
import Elf64.Proofs.Run

/-! Names, and what becomes of the two tables that every image has.

A name is stored together with the section or symbol that it belongs to, and its offset stays good
because the string table only grows. Headers of sections can be edited afterwards, so that what is said
about them here holds after changes that keep to a rule. -/

set_option autoImplicit false

namespace Elf64

/-! ## Rules for changes -/

namespace Edit

/-- Where a header says that the section's name is stays as it is. -/
def KeepsNames (image : Image) : Edit → Prop
  | editSection name f => ∀ header, image.sections.find? name = some header → (f header).name = header.name
  | _ => True

/-- The section of this name gets no type that leaves it out of the file. -/
def KeepsOccupied (name : String) (image : Image) : Edit → Prop
  | editSection target f =>
    target = name → ∀ header, image.sections.find? target = some header → (f header).occupiesFile
  | _ => True

/-- The section of this name is not linked anew. -/
def KeepsLink (name : String) (_ : Image) : Edit → Prop
  | link source _ => source ≠ name
  | _ => True

end Edit

/-! ## Properties of images -/

/-- The names of sections, and where their headers say that they are. -/
def SectionTable.namings (table : SectionTable) : List (Nat × String) :=
  table.added.toList.map fun entry => (entry.header.name.toNat, entry.name)

def SectionTable.Occupied (table : SectionTable) (i : Nat) : Prop :=
  ∀ header, table.get? i = some header → header.occupiesFile

/-- The header at an index, if there is one, has this property. -/
def SectionTable.Satisfies (table : SectionTable) (i : Nat) (holds : SectionHeader → Prop) : Prop :=
  ∀ header, table.get? i = some header → holds header

namespace Image

/-- The string table has the name of every section. -/
def NamesSections (image : Image) : Prop := image.sections.namings ⊆ image.strings.entries

/-- The string table has the names that symbols were added under. -/
def NamesSymbols (image : Image) (names : List String) : Prop :=
  List.Forall₂ (fun name symbol => name ≠ "" → (symbol.name.toNat, name) ∈ image.strings.entries)
    names image.symbols.symbols

end Image

namespace SectionTable

variable {table old new : SectionTable} {i j : Nat} {f : SectionHeader → SectionHeader}
  {holds : SectionHeader → Prop}

-- No two sections have the same name.
theorem WellFormed.nodup (wellFormed : table.WellFormed) : (table.added.toList.map Section.name).Nodup := by
  have named (i : Nat) : (table.added.toList.map Section.name)[i]? = table.nameOf? (i + 1) := by
    rw [List.getElem?_map, Array.getElem?_toList]
    rfl
  rw [List.nodup_iff_getElem?_ne_getElem?]
  intro i j before inside same
  rw [named, named] at same
  obtain ⟨name, here⟩ : ∃ name, table.nameOf? (j + 1) = some name := by
    rw [← named, List.getElem?_eq_getElem inside]
    exact ⟨_, rfl⟩
  have first := (wellFormed.indexed name (i + 1)).mpr (same.trans here)
  have second := (wellFormed.indexed name (j + 1)).mpr here
  have : i + 1 = j + 1 := Option.some.inj (first.symm.trans second)
  omega

theorem Alike.namings (alike : old.Alike new) : new.namings = old.namings := by
  have view (table : SectionTable) : table.namings =
      table.outline.map fun entry => (entry.header.name.toNat, entry.name) := by
    simp [SectionTable.namings, SectionTable.outline, Function.comp_def, Section.outline,
      SectionHeader.outline]
  rw [view, view, alike.outline]

theorem namings_push (table : SectionTable) (entry : Section) :
    (table.push entry).namings = table.namings ++ [(entry.header.name.toNat, entry.name)] := by
  simp [push, namings]

theorem namings_modify (keeps : ∀ header, table.get? i = some header → (f header).name = header.name) :
    (table.modify i f).namings = table.namings :=
  map_added_modify fun entry here => by simp [keeps entry.header here]

theorem Satisfies.of_alike (before : old.Satisfies i holds) (alike : old.Alike new)
    (outlined : ∀ header, holds header.outline ↔ holds header) : new.Satisfies i holds := by
  intro header here
  have same := alike.map_get? i
  rw [here] at same
  obtain ⟨other, there, outline⟩ := Option.map_eq_some_iff.mp same.symm
  rw [← outlined, ← outline, outlined]
  exact before other there

theorem Satisfies.push (before : table.Satisfies i holds) (bound : i < table.size) (entry : Section) :
    (table.push entry).Satisfies i holds := by
  intro header here
  rw [get?_push, if_neg (Nat.ne_of_lt bound)] at here
  exact before header here

theorem Satisfies.modify (before : table.Satisfies i holds)
    (keeps : j = i → ∀ header, table.get? j = some header → holds (f header)) (positive : j ≠ 0) :
    (table.modify j f).Satisfies i holds := by
  intro header here
  by_cases same : j = i
  · subst same
    rw [get?_modify_self, if_neg positive] at here
    obtain ⟨other, there, rfl⟩ := Option.map_eq_some_iff.mp here
    exact keeps rfl other there
  · rw [get?_modify_of_ne same] at here
    exact before header here

end SectionTable

namespace Image

variable {image next : Image} {edit : Edit} {answer : Except Error Answer}

/-! ## What one change keeps -/

theorem NamesSections.pushSection (strings : image.strings.WellFormed) {name : String}
    (stored : image.strings.check name = .ok ()) (named : image.NamesSections) (header : SectionHeader)
    (contents : Bytes) : (image.pushSection name header contents).NamesSections := by
  show SectionTable.namings (SectionTable.push _ _) ⊆ _
  rw [SectionTable.namings_push]
  refine List.append_subset.mpr ⟨List.Subset.trans named (image.strings.entries_subset_push name), ?_⟩
  exact List.cons_subset.mpr ⟨strings.stored stored, List.nil_subset _⟩

theorem NamesSections.step (wellFormed : image.WellFormed) (rule : edit.KeepsNames image)
    (step : image.Step edit answer next) (named : image.NamesSections) : next.NamesSections := by
  cases step with
  | refused | refusedText | linked | editedHeader | missedSection => exact named
  | addedString text checked => exact List.Subset.trans named (image.strings.entries_subset_push text)
  | addedSection name header contents checked stored => exact named.pushSection wellFormed.strings stored _ _
  | addedSymbol name symbol checked stored =>
    by_cases unnamed : name = ""
    · subst unnamed
      exact named
    · rw [pushSymbol_named image unnamed]
      exact List.Subset.trans named (image.strings.entries_subset_push name)
  | editedSection name f i found =>
    have kept := SectionTable.namings_modify fun header here =>
      rule header ((SectionTable.find?_of_indexOf? found).trans here)
    rw [NamesSections, kept]
    exact named
  | finalized answer next outcome =>
    have alike := alike_of_finalize outcome
    rw [NamesSections, alike.sections.namings, alike.strings]
    exact named

theorem NamesSymbols.mono {names : List String} (named : image.NamesSymbols names)
    (symbols : next.symbols = image.symbols) (grown : image.strings.entries ⊆ next.strings.entries) :
    next.NamesSymbols names := by
  rw [NamesSymbols, symbols]
  exact List.Forall₂.imp (fun _ _ stored named => grown (stored named)) named

theorem NamesSymbols.pushSymbol {names : List String} (wellFormed : image.WellFormed) {name : String}
    (stored : name ≠ "" → image.strings.check name = .ok ()) (named : image.NamesSymbols names)
    (symbol : Symbol) : (image.pushSymbol name symbol).NamesSymbols (names ++ [name]) := by
  by_cases unnamed : name = ""
  · subst unnamed
    rw [pushSymbol_unnamed, NamesSymbols, SymbolTable.symbols_push]
    exact List.rel_append named (.cons (fun named => absurd rfl named) .nil)
  · rw [pushSymbol_named image unnamed, NamesSymbols, SymbolTable.symbols_push]
    refine List.rel_append ?_ (.cons (fun _ => wellFormed.strings.stored (stored unnamed)) .nil)
    exact List.Forall₂.imp
      (fun _ _ before named => image.strings.entries_subset_push name (before named)) named

theorem NamesSymbols.unchanged {names : List String} (none : edit.symbol? answer = none)
    (named : next.NamesSymbols names) : next.NamesSymbols (names ++ (edit.symbol? answer).toList) := by
  rw [none]
  exact (List.append_nil names).symm ▸ named

theorem NamesSymbols.step {names : List String} (wellFormed : image.WellFormed)
    (step : image.Step edit answer next) (named : image.NamesSymbols names) :
    next.NamesSymbols (names ++ (edit.symbol? answer).toList) := by
  cases step with
  | refused edit e | refusedText edit e => exact unchanged (edit.symbol?_error e) named
  | linked | editedHeader | missedSection | editedSection => exact unchanged rfl named
  | addedString text => exact unchanged rfl (named.mono rfl (image.strings.entries_subset_push text))
  | addedSection name => exact unchanged rfl (named.mono rfl (image.strings.entries_subset_push name))
  | addedSymbol name symbol checked stored => exact named.pushSymbol wellFormed stored symbol
  | finalized answer next outcome =>
    have alike := alike_of_finalize outcome
    refine unchanged rfl (named.mono alike.symbols ?_)
    rw [alike.strings]
    exact List.Subset.refl _

-- What a header satisfies whatever finalizing stores in it, it satisfies until its section is edited.
theorem satisfies_step {holds : SectionHeader → Prop} {i : Nat} {name : String}
    (outlined : ∀ header, holds header.outline ↔ holds header) (wellFormed : image.WellFormed)
    (here : image.sections.nameOf? i = some name) (step : image.Step edit answer next)
    (rule : ∀ f, edit = .editSection name f →
      ∀ header, image.sections.find? name = some header → holds (f header))
    (before : image.sections.Satisfies i holds) : next.sections.Satisfies i holds := by
  cases step with
  | refused | refusedText | addedString | linked | editedHeader | missedSection => exact before
  | addedSymbol =>
    rw [sections_pushSymbol]
    exact before
  | addedSection name header contents =>
    exact before.push (SectionTable.lt_size_of_nameOf? here) _
  | editedSection target f j found =>
    refine before.modify ?_ (wellFormed.sections.ne_zero found)
    -- The rule speaks of the name, the change of the index that the name has.
    intro same header there
    have named := (wellFormed.sections.indexed target j).mp found
    rw [same, here] at named
    obtain rfl := Option.some.inj named
    exact rule f rfl header ((SectionTable.find?_of_indexOf? found).trans there)
  | finalized answer next outcome =>
    have alike := alike_of_finalize outcome
    exact before.of_alike alike.sections outlined

theorem occupied_step {i : Nat} {name : String} (wellFormed : image.WellFormed)
    (here : image.sections.nameOf? i = some name) (rule : edit.KeepsOccupied name image)
    (step : image.Step edit answer next) (occupied : image.sections.Occupied i) :
    next.sections.Occupied i := by
  refine satisfies_step (fun header => Iff.rfl) wellFormed here step ?_ occupied
  rintro f rfl
  exact rule rfl

-- The symbol table stays linked to the string table.
theorem symtab_linked_step (wellFormed : image.WellFormed) (rule : edit.KeepsLink symtabName image)
    (step : image.Step edit answer next) (linked : (1, strtabName) ∈ image.sections.links) :
    (1, strtabName) ∈ next.sections.links := by
  cases step with
  | refused | refusedText | addedString | addedSection | editedHeader | missedSection => exact linked
  | addedSymbol => rwa [sections_pushSymbol]
  | linked source target i found =>
    -- The rule keeps the filter away from the link of the symbol table.
    have other : 1 ≠ i := by
      rintro rfl
      rw [wellFormed.sections.indexed, wellFormed.symtab] at found
      exact rule (Option.some.inj found).symm
    exact List.mem_append_left _ (List.mem_filter.mpr ⟨linked, by simpa using other⟩)
  | editedSection => rwa [SectionTable.links_modify]
  | finalized answer next outcome =>
    have alike := alike_of_finalize outcome
    rwa [alike.sections.links]

end Image

namespace Run

/-! ## What a run keeps -/

theorem namesSections (run : Run) (follows : run.Follows Edit.KeepsNames) :
    run.image.NamesSections := by
  refine run.invariant ?_ (fun wellFormed rule step named => named.step wellFormed rule step) follows
  intro config
  have first : (StringTable.push {} symtabName).WellFormed := StringTable.wellFormed_empty.push (by decide)
  apply Image.NamesSections.pushSection
  · exact first
  · rfl
  · apply Image.NamesSections.pushSection
    · exact StringTable.wellFormed_empty
    · rfl
    · exact List.nil_subset _

-- No rule is needed here, since symbols are not edited.
theorem namesSymbols (run : Run) : run.image.NamesSymbols run.symbolNames := by
  induction run using induction with
  | start config => exact .cons (fun named => absurd rfl named) .nil
  | next run edit ih =>
    rw [image_extend, symbolNames_extend]
    exact ih.step run.wellFormed (Image.step_apply edit run.image)

theorem symtab_occupied (run : Run) (follows : run.Follows (Edit.KeepsOccupied symtabName)) :
    run.image.sections.Occupied 1 := by
  refine run.invariant ?_ (fun wellFormed => Image.occupied_step wellFormed wellFormed.symtab) follows
  intro config header here
  obtain rfl := Option.some.inj here
  rfl

theorem strtab_occupied (run : Run) (follows : run.Follows (Edit.KeepsOccupied strtabName)) :
    run.image.sections.Occupied 2 := by
  refine run.invariant ?_ (fun wellFormed => Image.occupied_step wellFormed wellFormed.strtab) follows
  intro config header here
  obtain rfl := Option.some.inj here
  rfl

theorem symtab_linked (run : Run) (follows : run.Follows (Edit.KeepsLink symtabName)) :
    (1, strtabName) ∈ run.image.sections.links := by
  refine run.invariant ?_ Image.symtab_linked_step follows
  intro config
  exact List.mem_cons_self

end Run

end Elf64
