import Elf64.Image.Serialize
import Elf64.Proofs.Acceptance
import Elf64.Proofs.Twins

/-! Finalizing in the middle of a run.

Twins stay twins when both are changed in the same way, and the change answers the same for both
(`Image.Twins.apply`). So a run can do without the finalizing in it: the answers to the other changes
and the file that is written in the end are the same (`Run.replays`). -/

set_option autoImplicit false

namespace Elf64

/-- The view of the new value depends on nothing but the view of the old one. -/
def Fieldwise {σ α : Type} (view : σ → α) (f : σ → σ) : Prop :=
  ∀ a b, view a = view b → view (f a) = view (f b)

theorem map_eq_map {α β γ : Type} {f : α → β} {g : α → γ} {a b : Option α}
    (same : a.map f = b.map f) (finer : ∀ x y, a = some x → b = some y → f x = f y → g x = g y) :
    a.map g = b.map g := by
  cases b with
  | none => rw [Option.map_eq_none_iff.mp same]
  | some y =>
    obtain ⟨x, rfl, equal⟩ := Option.map_eq_some_iff.mp same
    exact congrArg some (finer x y rfl rfl equal)

theorem map_modify_of_map {α β : Type} {view : α → β} {f g : α → α} {old new : List α} {i : Nat}
    (same : new.map view = old.map view)
    (changed : ∀ a b, old[i]? = some a → new[i]? = some b → view b = view a → view (g b) = view (f a)) :
    (new.modify i g).map view = (old.modify i f).map view := by
  induction old generalizing new i with
  | nil =>
    obtain rfl := List.map_eq_nil_iff.mp same
    simp
  | cons first rest ih =>
    obtain ⟨other, others, rfl, here, later⟩ := List.map_eq_cons_iff.mp same
    cases i with
    | zero => simp [changed first other rfl rfl here, later]
    | succ i => simp [here, ih later changed]

theorem Fieldwise.map_modify {α β : Type} {view : α → β} {change : α → α}
    (fieldwise : Fieldwise view change) {old new : List α} (same : new.map view = old.map view) (i : Nat) :
    (new.modify i change).map view = (old.modify i change).map view :=
  map_modify_of_map same fun a b _ _ => fieldwise b a

/-! ## Rules for changes -/

namespace Edit

def isFinalize : Edit → Bool
  | finalize => true
  | _ => false

/-- What a header gets does not depend on the fields that finalizing stores, unless for the same field.
It is so if fields get fixed values. Whether a section occupies the file stays as it is. -/
def Fieldwise (image : Image) : Edit → Prop
  | editHeader f => Elf64.Fieldwise FileHeader.outline f
  | editSection name f => Elf64.Fieldwise SectionHeader.outline f ∧ Elf64.Fieldwise SectionHeader.size f ∧
    Elf64.Fieldwise SectionHeader.link f ∧ Elf64.Fieldwise SectionHeader.info f ∧
    ∀ header, image.sections.find? name = some header → (f header).occupiesFile = header.occupiesFile
  | _ => True

end Edit

-- Fixed values are stored field by field.
theorem FileHeader.Patch.fieldwise (patch : FileHeader.Patch) :
    Fieldwise FileHeader.outline patch.apply := by
  intro a b same
  obtain ⟨fileType, machine, version, entry, flags, osAbi, abiVersion⟩ := outline_eq_iff.mp same
  simp only [outline, apply, fileType, machine, version, entry, flags, osAbi, abiVersion]

theorem SectionHeader.Patch.fieldwise (patch : SectionHeader.Patch) :
    Fieldwise SectionHeader.outline patch.apply ∧ Fieldwise SectionHeader.size patch.apply ∧
      Fieldwise SectionHeader.link patch.apply ∧ Fieldwise SectionHeader.info patch.apply := by
  refine ⟨fun a b same => ?_, fun a b same => ?_, fun a b same => ?_, fun a b same => ?_⟩
  · obtain ⟨name, type, flags, addr, addralign, entsize⟩ := outline_eq_iff.mp same
    simp only [outline, apply, name, type, flags, addr, addralign, entsize]
  · exact congrArg patch.size.getD same
  · exact congrArg patch.link.getD same
  · exact congrArg patch.info.getD same

namespace SectionTable

variable {table old new : SectionTable} {i : Nat}

-- With more links, less is given.
theorem given_mono {next : SectionTable} {a b : SectionHeader} (same : table.given i a = table.given i b)
    (links : i ∈ table.links.map Prod.fst → i ∈ next.links.map Prod.fst)
    (symtab : table.indexOf? symtabName = some i → next.indexOf? symtabName = some i) :
    next.given i a = next.given i b := by
  obtain ⟨outline, size, link, info⟩ := given_eq_iff.mp same
  exact given_eq_iff.mpr ⟨outline, size, fun unlinked => link fun linked => unlinked (links linked),
    fun other => info fun found => other (symtab found)⟩

theorem Twins.check (twins : old.Twins new) (name : String) (header : SectionHeader) :
    new.check name header = old.check name header := by
  simp only [SectionTable.check, twins.alike.index]

theorem Twins.push (twins : old.Twins new) {entry : Section} (fresh : old.indexOf? entry.name = none) :
    (old.push entry).Twins (new.push entry) where
  alike := {
    outline := by
      have same := twins.alike.outline
      simp only [outline] at same
      simp [SectionTable.push, outline, same]
    index := by
      simp only [SectionTable.push, twins.alike.index, twins.alike.size]
    links := twins.alike.links }
  given i := by
    rw [get?_push, get?_push, twins.alike.size]
    split
    · rfl
    · refine map_eq_map (twins.given i) fun a b _ _ same => given_mono same id fun found => ?_
      rw [indexOf?_push, if_neg, found]
      intro symtab
      rw [symtab, found] at fresh
      contradiction

-- Views that agree before a change agree after it, if the change keeps them together.
theorem map_get?_modify_of_map {α : Type} {view : Nat → SectionHeader → α} {f : SectionHeader → SectionHeader}
    (same : ∀ j, (new.get? j).map (view j) = (old.get? j).map (view j))
    (changed : ∀ a b, old.get? i = some b → view i a = view i b → view i (f a) = view i (f b)) (j : Nat) :
    ((new.modify i f).get? j).map (view j) = ((old.modify i f).get? j).map (view j) := by
  by_cases here : i = j
  · subst here
    rw [get?_modify_self, get?_modify_self]
    split
    · rfl
    · rw [Option.map_map, Option.map_map]
      exact map_eq_map (same i) fun a b _ there => changed a b there
  · rw [get?_modify_of_ne here, get?_modify_of_ne here, same]

theorem Twins.modify (twins : old.Twins new) {f : SectionHeader → SectionHeader}
    (outline : Fieldwise SectionHeader.outline f) (size : Fieldwise SectionHeader.size f)
    (link : Fieldwise SectionHeader.link f) (info : Fieldwise SectionHeader.info f)
    (occupies : ∀ header, old.get? i = some header → (f header).occupiesFile = header.occupiesFile) :
    (old.modify i f).Twins (new.modify i f) where
  alike := {
    outline := by
      cases i with
      | zero => exact twins.alike.outline
      | succ i =>
        simp only [SectionTable.outline, SectionTable.modify, Array.toList_modify]
        refine Fieldwise.map_modify ?_ twins.alike.outline i
        intro a b same
        obtain ⟨name, header, contents⟩ := Section.mk.inj same
        exact Section.mk.injEq .. ▸ ⟨name, outline _ _ header, contents⟩
    index := by rw [index_modify, index_modify, twins.alike.index]
    links := by rw [links_modify, links_modify, twins.alike.links] }
  given j := by
    have unchanged : (old.modify i f).given = old.given := by cases i <;> rfl
    rw [unchanged]
    refine map_get?_modify_of_map twins.given (fun a b there same => given_eq_iff.mpr ?_) j
    obtain ⟨outlines, sizes, links, infos⟩ := given_eq_iff.mp same
    have kept := (SectionHeader.occupiesFile_of_outline (outline a b outlines)).trans (occupies b there)
    rw [← SectionHeader.occupiesFile_of_outline outlines] at kept
    exact ⟨outline a b outlines, fun vacant => size a b (sizes (kept ▸ vacant)),
      fun unlinked => link a b (links unlinked), fun other => info a b (infos other)⟩

theorem Twins.link (twins : old.Twins new) (source target : String) :
    (new.link source target).1 = (old.link source target).1 ∧
      (old.link source target).2.Twins (new.link source target).2 := by
  have same := twins.alike.indexOf? source
  cases found : old.indexOf? source with
  | none =>
    rw [link_of_indexOf?_eq_none found, link_of_indexOf?_eq_none (same.trans found)]
    exact ⟨rfl, twins⟩
  | some i =>
    rw [link_of_indexOf? found, link_of_indexOf? (same.trans found), twins.alike.links]
    refine ⟨rfl, ⟨twins.alike.outline, twins.alike.index, rfl⟩, fun j => ?_⟩
    -- The links that are dropped have the source of the new one.
    refine map_eq_map (twins.given j) fun a b _ _ same => given_mono same ?_ id
    intro linked
    by_cases dropped : j = i
    · simp [dropped]
    · simpa [dropped] using linked

end SectionTable

namespace Image

variable {old new : Image}

/-! ## One change -/

/-- The same answer, and images that are twins. -/
def TwinOutcomes {α : Type} (old new : Outcome Image α) : Prop :=
  new.1 = old.1 ∧ old.2.Twins new.2

theorem TwinOutcomes.map {α β : Type} {first second : Outcome Image α} (twins : TwinOutcomes first second)
    (f : α → β) : TwinOutcomes (first.map f) (second.map f) := by
  obtain ⟨answer, old⟩ := first
  obtain ⟨answer', new⟩ := second
  obtain ⟨same, twins⟩ := twins
  obtain rfl : answer' = answer := same
  cases answer' <;> exact ⟨rfl, twins⟩

theorem Twins.reopen (twins : old.Twins new) : old.reopen.Twins new.reopen :=
  ⟨twins.header, twins.sections, twins.strings, twins.symbols⟩

theorem Twins.addString (twins : old.Twins new) (text : String) :
    TwinOutcomes (old.addString text) (new.addString text) := by
  refine ⟨?_, twins.header, twins.sections, ?_, twins.symbols⟩
  · simp only [Image.addString, twins.strings]
  · simp only [Image.addString, twins.strings]

theorem Twins.afterChecks (twins : old.Twins new) {α : Type} {first second : Except Error Unit}
    {answer : α} {next next' : Image} (passed : first = .ok () → next.Twins next') :
    TwinOutcomes (old.afterChecks first second answer next)
      (new.afterChecks first second answer next') :=
  afterChecks_related Twins twins twins.reopen passed

theorem Twins.addSection (twins : old.Twins new) (name : String) (header : SectionHeader)
    (contents : Bytes) :
    TwinOutcomes (old.addSection name header contents) (new.addSection name header contents) := by
  rw [addSection_eq, addSection_eq, twins.sections.check, twins.strings, twins.alike.sections.size]
  refine twins.afterChecks fun checked => ⟨twins.header, ?_, ?_, twins.symbols⟩
  · simp only [Image.pushSection, twins.strings]
    apply twins.sections.push
    exact (SectionTable.check_eq_ok checked).1
  · simp only [Image.pushSection, twins.strings]

theorem Twins.pushSymbol (twins : old.Twins new) (name : String) (symbol : Symbol) :
    (old.pushSymbol name symbol).Twins (new.pushSymbol name symbol) := by
  by_cases unnamed : name = ""
  · subst unnamed
    rw [pushSymbol_unnamed, pushSymbol_unnamed, twins.symbols]
    exact ⟨twins.header, twins.sections, twins.strings, rfl⟩
  · rw [pushSymbol_named old unnamed, pushSymbol_named new unnamed, twins.symbols, twins.strings]
    exact ⟨twins.header, twins.sections, rfl, rfl⟩

theorem Twins.addSymbol (twins : old.Twins new) (name : String) (symbol : Symbol) :
    TwinOutcomes (old.addSymbol name symbol) (new.addSymbol name symbol) := by
  rw [addSymbol_eq, addSymbol_eq, twins.symbols, twins.strings]
  exact twins.afterChecks fun checked => twins.pushSymbol name symbol

theorem Twins.link (twins : old.Twins new) (source target : String) :
    TwinOutcomes (old.link source target) (new.link source target) := by
  obtain ⟨same, linked⟩ := twins.sections.link source target
  rw [Image.link_eq, Image.link_eq]
  exact ⟨same, twins.header, linked, twins.strings, twins.symbols⟩

theorem Twins.editSection (twins : old.Twins new) {name : String} {f : SectionHeader → SectionHeader}
    (rule : (Edit.editSection name f).Fieldwise old) :
    (old.editSection name f).Twins (new.editSection name f) := by
  obtain ⟨outline, size, link, info, occupies⟩ := rule
  have same := twins.alike.sections.indexOf? name
  cases found : old.sections.indexOf? name with
  | none =>
    simp only [Image.editSection, same, found]
    exact twins.reopen
  | some i =>
    simp only [Image.editSection, same, found]
    rw [SectionTable.find?_of_indexOf? found] at occupies
    exact ⟨twins.header, twins.sections.modify outline size link info occupies, twins.strings,
      twins.symbols⟩

/-- A change answers the same for twins, and leaves twins. -/
theorem Twins.apply (twins : old.Twins new) {edit : Edit} (rule : edit.Fieldwise old) :
    TwinOutcomes (edit.apply old) (edit.apply new) := by
  cases edit with
  | addString text => exact (twins.addString text).map Answer.number
  | addSection name header contents => exact (twins.addSection name header contents).map Answer.number
  | addSymbol name symbol => exact (twins.addSymbol name symbol).map Answer.number
  | link source target => exact (twins.link source target).map fun _ => Answer.done
  | editHeader f =>
    exact ⟨rfl, rule _ _ twins.header, twins.sections, twins.strings, twins.symbols⟩
  | editSection name f =>
    refine ⟨?_, twins.editSection rule⟩
    simp only [Edit.apply, twins.alike.sections.indexOf?]
  | finalize =>
    have finalized : TwinOutcomes old.finalize new.finalize :=
      ⟨twins.alike.finalize_answer, (old.finalize_twins.symm.trans twins).trans new.finalize_twins⟩
    exact finalized.map fun _ => Answer.done

end Image

namespace Run

/-! ## Whole runs -/

def withoutFinalize (run : Run) : Run :=
  { run with edits := run.edits.filter fun edit => !edit.isFinalize }

theorem withoutFinalize_extend (run : Run) (edit : Edit) : (run.extend edit).withoutFinalize =
    if edit.isFinalize then run.withoutFinalize else run.withoutFinalize.extend edit := by
  cases last : edit.isFinalize <;> simp [withoutFinalize, extend, last]

-- Finalizing leaves a twin, every other change is made to both.
theorem withoutFinalize_twins (run : Run) (follows : run.withoutFinalize.Follows Edit.Fieldwise) :
    (run.history.filter fun entry => !entry.1.isFinalize) = run.withoutFinalize.history ∧
      run.withoutFinalize.image.Twins run.image := by
  induction run using induction with
  | start config => exact ⟨rfl, .refl _⟩
  | next run edit ih =>
    rw [withoutFinalize_extend] at follows ⊢
    rw [history_extend, image_extend, List.filter_append]
    cases last : edit.isFinalize with
    | true =>
      rw [last, if_pos rfl] at follows
      obtain ⟨history, twins⟩ := ih follows
      obtain rfl : edit = .finalize := by
        cases edit <;> first | rfl | contradiction
      refine ⟨by simpa [last] using history, twins.trans ?_⟩
      rw [Edit.apply, Outcome.snd_map]
      exact run.image.finalize_twins
    | false =>
      rw [last, if_neg Bool.false_ne_true, follows_extend] at follows
      obtain ⟨history, twins⟩ := ih follows.1
      obtain ⟨same, left⟩ := twins.apply follows.2
      rw [if_neg Bool.false_ne_true, history_extend, image_extend]
      refine ⟨?_, left⟩
      simp [last, history, same]

/-- Finalizing in the middle of a run leaves no trace: the other changes answer the same without it,
finalizing in the end does, and the file is the same. -/
theorem replays (run : Run) (follows : run.withoutFinalize.Follows Edit.Fieldwise) :
    (run.history.filter fun entry => !entry.1.isFinalize) = run.withoutFinalize.history ∧
      run.image.finalize.1 = run.withoutFinalize.image.finalize.1 ∧
      ∀ reserves, run.image.finalize.2.serialize reserves =
        run.withoutFinalize.image.finalize.2.serialize reserves := by
  obtain ⟨history, twins⟩ := run.withoutFinalize_twins follows
  obtain ⟨answer, equal⟩ := twins.finalize run.withoutFinalize.wellFormed.sections
  refine ⟨history, answer, fun reserves => ?_⟩
  cases done : run.withoutFinalize.image.finalize.1 with
  | ok finished => rw [equal done]
  | error e =>
    -- After a failure there is no file.
    have first := Image.finalSize_of_failed (Prod.ext done rfl)
    have second := Image.finalSize_of_failed (Prod.ext (answer.trans done) rfl)
    simp only [Image.serialize, first, second]

/-- Finalizing succeeds at first. Then it fails for a link without a target, and for a machine that is
not what its number stands for. -/
def interrupted : Run where
  edits := [
    .addSection ".text" { type := .progBits, addralign := 16 } [0x90, 0xc3],
    .finalize,
    .link ".text" ".data",
    .editSection ".text" (SectionHeader.Patch.apply { addr := some 0x401000 }),
    .finalize,
    .addSection ".data" { type := .progBits } [1, 2, 3],
    .editHeader (FileHeader.Patch.apply { machine := some (.unknown 3) }),
    .finalize,
    .editHeader (FileHeader.Patch.apply { machine := some .x86_64, entry := some 0x401000 }),
    .addSymbol "main" { info := 0x12, definedIn := .index 3 }]

theorem follows_interrupted : interrupted.withoutFinalize.Follows Edit.Fieldwise := by
  refine ⟨trivial, trivial, ?_, trivial, ?_, ?_, trivial, trivial⟩
  · obtain ⟨outline, size, link, info⟩ := SectionHeader.Patch.fieldwise { addr := some 0x401000 }
    exact ⟨outline, size, link, info, fun header _ => rfl⟩
  · exact FileHeader.Patch.fieldwise _
  · exact FileHeader.Patch.fieldwise _

theorem replays_interrupted : interrupted.withoutFinalize.Follows Edit.Fieldwise ∧
    interrupted.image.finalize.1 = .ok () ∧
    (∀ reserves, interrupted.image.finalize.2.serialize reserves =
      interrupted.withoutFinalize.image.finalize.2.serialize reserves) ∧
    (interrupted.history.filter fun entry => entry.1.isFinalize).map (fun entry => entry.2.isOk) =
      [true, false, false] :=
  ⟨follows_interrupted, by decide +kernel, (replays interrupted follows_interrupted).2.2,
    by decide +kernel⟩

end Run

end Elf64
