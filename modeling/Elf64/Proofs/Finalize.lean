import Elf64.Image.Finalize
import Elf64.Proofs.Layout

/-! Finalized images.

Finalizing leaves tables, names, contents and links alone, and of the headers it changes only what it
stores (`Image.finalize_alike`). What a successful run leaves is `Settled`: every stage finds what it
would store in place already, so that finalizing again does nothing (`Image.Settled.finalize`). -/

set_option autoImplicit false

namespace Elf64

section

variable {σ α β : Type} {first : Outcome σ α} {next : α → σ → Outcome σ β}

theorem Outcome.andThen_eq_ok {b : β} {last : σ} (done : first.andThen next = (.ok b, last)) :
    ∃ a state, first = (.ok a, state) ∧ next a state = (.ok b, last) := by
  obtain ⟨answer, state⟩ := first
  cases answer with
  | error e => simp at done
  | ok a => exact ⟨a, state, rfl, done⟩

-- What holds of the state and is kept by the next step holds in the end, also after a failure.
theorem Outcome.andThen_keeps {holds : σ → Prop} (here : holds first.2)
    (kept : ∀ a state, first = (.ok a, state) → holds state → holds (next a state).2) :
    holds (first.andThen next).2 := by
  obtain ⟨answer, state⟩ := first
  cases answer with
  | error e => exact here
  | ok a => exact kept a state rfl here

theorem Outcome.fst_map (outcome : Outcome σ α) (f : α → β) : (outcome.map f).1 = outcome.1.map f := by
  obtain ⟨answer, state⟩ := outcome
  cases answer <;> rfl

theorem Outcome.snd_map (outcome : Outcome σ α) (f : α → β) : (outcome.map f).2 = outcome.2 := by
  obtain ⟨answer, state⟩ := outcome
  cases answer <;> rfl

theorem Outcome.fst_map_eq_error_iff {outcome : Outcome σ α} {f : α → β} {e : Error} :
    (outcome.map f).1 = .error e ↔ outcome.1 = .error e := by
  obtain ⟨answer, state⟩ := outcome
  cases answer <;> simp [map]

-- What every step before a failing one keeps, and the failing one too, holds after a failure.
theorem Outcome.andThen_fails (holds : σ → Prop) {e : Error} {last : σ} (here : holds first.2)
    (fails : ∀ a state, holds state → next a state = (.error e, last) → holds last)
    (failed : first.andThen next = (.error e, last)) : holds last := by
  obtain ⟨answer, state⟩ := first
  cases answer with
  | error e => exact (Prod.mk.inj failed).2 ▸ here
  | ok a => exact fails a state here failed

end

/-! ## Validation and the file header -/

theorem SectionHeader.validate_outline (header : SectionHeader) :
    header.outline.validate = header.validate := rfl

namespace SectionTable

variable {old new table : SectionTable} {i : Nat} {f : SectionHeader → SectionHeader}

theorem validate_eq (table : SectionTable) :
    table.validate = table.outline.forM fun entry => entry.header.validate := by
  have null : SectionHeader.null.validate = .ok () := rfl
  simp [validate, headers, outline, Section.outline, SectionHeader.validate_outline, null,
    bind, Except.bind]

-- Checks look at no field that finalizing stores.
theorem Alike.validate (alike : old.Alike new) : new.validate = old.validate := by
  rw [validate_eq, validate_eq, alike.outline]

theorem require_eq_ok_iff {name : String} :
    table.require name = .ok i ↔ table.indexOf? name = some i := by
  unfold require
  split <;> simp [*]

theorem Resolved.of_alike (resolved : old.Resolved) (alike : old.Alike new)
    (kept : ∀ i, (new.get? i).map SectionHeader.link = (old.get? i).map SectionHeader.link) :
    new.Resolved := by
  intro link member
  obtain ⟨target, found, fixed⟩ := resolved link (alike.links ▸ member)
  refine ⟨target, (alike.indexOf? _).trans found, fun header here => ?_⟩
  have before := kept link.1
  rw [here] at before
  obtain ⟨header', there, same⟩ := Option.map_eq_some_iff.mp before.symm
  exact same ▸ fixed header' there

end SectionTable

namespace FileHeader

/-- A header without the fields that finalizing stores. -/
def outline (header : FileHeader) : FileHeader :=
  { header with sectionTableOffset := 0, sectionCount := 0, nameTableIndex := 0 }

theorem outline_eq_iff {a b : FileHeader} : a.outline = b.outline ↔
    a.fileType = b.fileType ∧ a.machine = b.machine ∧ a.version = b.version ∧ a.entry = b.entry ∧
      a.flags = b.flags ∧ a.osAbi = b.osAbi ∧ a.abiVersion = b.abiVersion := by
  simp [outline]

theorem close_eq_ok_iff {header closed : FileHeader} {count index : Nat} :
    header.close count index = .ok closed ↔
      header.fileType.check = .ok () ∧ header.machine.check = .ok () ∧ count < 0x10000 ∧ index < 0x10000 ∧
        closed = { header with sectionCount := .ofNat count, nameTableIndex := .ofNat index } := by
  have countFits : _ ↔ count < 0x10000 := FixedInt.check_count_iff count .half
  have indexFits : _ ↔ index < 0x10000 := FixedInt.check_count_iff index .half
  rw [← countFits, ← indexFits]
  simp only [close, bind, Except.bind, pure, Except.pure]
  -- Only where all four checks pass are both sides true.
  cases header.fileType.check <;> cases header.machine.check <;>
    cases (FixedInt.count count .half).check <;> cases (FixedInt.count index .half).check <;>
    simp [eq_comm]

theorem close_again {header closed : FileHeader} {count index : Nat}
    (done : header.close count index = .ok closed) : closed.close count index = .ok closed := by
  obtain ⟨fileType, machine, countFits, indexFits, rfl⟩ := close_eq_ok_iff.mp done
  exact close_eq_ok_iff.mpr ⟨fileType, machine, countFits, indexFits, rfl⟩

end FileHeader

namespace Image

/-! ## What finalizing leaves alone -/

/-- The images differ at most in what finalizing stores. -/
structure Alike (old new : Image) : Prop where
  header : new.header.outline = old.header.outline
  sections : old.sections.Alike new.sections
  strings : new.strings = old.strings
  symbols : new.symbols = old.symbols

/-- Only section headers differ, in what finalizing stores. -/
def Adjusts (old new : Image) : Prop :=
  ∃ sections, old.sections.Alike sections ∧ new = { old with sections }

variable {image old new : Image} {size : Nat}

theorem Adjusts.alike (adjusts : old.Adjusts new) : old.Alike new := by
  obtain ⟨sections, alike, rfl⟩ := adjusts
  exact ⟨rfl, alike, rfl, rfl⟩

theorem Adjusts.finalSize (adjusts : old.Adjusts new) : new.finalSize = old.finalSize := by
  obtain ⟨sections, alike, rfl⟩ := adjusts
  rfl

theorem Adjusts.header (adjusts : old.Adjusts new) : new.header = old.header := by
  obtain ⟨sections, alike, rfl⟩ := adjusts
  rfl

theorem Adjusts.refl (image : Image) : image.Adjusts image := ⟨image.sections, .refl _, rfl⟩

theorem Adjusts.trans {next : Image} (first : old.Adjusts new) (second : new.Adjusts next) :
    old.Adjusts next := by
  obtain ⟨middle, one, rfl⟩ := first
  obtain ⟨sections, two, rfl⟩ := second
  exact ⟨sections, one.trans two, rfl⟩

theorem Alike.trans {next : Image} (first : old.Alike new) (second : new.Alike next) :
    old.Alike next :=
  ⟨second.header.trans first.header, first.sections.trans second.sections,
    second.strings.trans first.strings, second.symbols.trans first.symbols⟩

theorem resolveLinks_adjusts (image : Image) : image.Adjusts image.resolveLinks.2 :=
  ⟨_, SectionTable.applyLinks_alike image.sections.links image.sections, rfl⟩

theorem storeFirstGlobal_adjusts (image : Image) : image.Adjusts image.storeFirstGlobal.2 := by
  refine Outcome.andThen_keeps (.refl image) fun index state _ here => ?_
  refine Outcome.andThen_keeps here fun _ state _ here => here.trans ?_
  refine ⟨_, SectionTable.modify_alike ?_, rfl⟩
  intro header
  rfl

-- Placing sections changes their offsets and sizes only.
theorem placeAll_alike (sizeOf : Section → Nat) (start : Nat) (table : SectionTable) : table.Alike
    { table with added := (placeAll sizeOf #[] start table.added.toList).2 } where
  outline := map_placeAll (fun _ _ _ _ => rfl) sizeOf #[] start table.added.toList
  index := rfl
  links := rfl

-- Placing keeps a view of headers that leaves out what it may change.
theorem map_get?_placeAll {α : Type} {view : SectionHeader → α}
    (blind : ∀ header offset size, (¬ header.occupiesFile → size = header.size) →
      view { header with offset, size } = view header)
    (sizeOf : Section → Nat) (start : Nat) (table : SectionTable) (i : Nat) :
    (SectionTable.get? { table with added := (placeAll sizeOf #[] start table.added.toList).2 } i).map view =
      (table.get? i).map view :=
  SectionTable.map_get?_of_map
    (map_placeAll (fun entry => blind entry.header) sizeOf #[] start table.added.toList) i

theorem layOut_adjusts (image : Image) : image.Adjusts image.layOut.2 := by
  refine Outcome.andThen_keeps ⟨_, placeAll_alike _ _ image.sections, rfl⟩ fun size state _ here => ?_
  split <;> exact here

theorem close_keeps (image : Image) (size : Nat) : ∃ header finalSize,
    header.outline = image.header.outline ∧ (image.close size).2 = { image with header, finalSize } := by
  let keeps (state : Image) : Prop := ∃ header finalSize,
    header.outline = image.header.outline ∧ state = { image with header, finalSize }
  let moved := { image.header with sectionTableOffset := .ofNat FileHeader.recordSize }
  have opened : keeps { image with header := moved } := ⟨moved, image.finalSize, rfl, rfl⟩
  show keeps (image.close size).2
  refine Outcome.andThen_keeps opened fun index state _ here => ?_
  refine Outcome.andThen_keeps here fun header state' done here => ?_
  obtain ⟨closed, rfl⟩ := Prod.mk.inj done
  obtain ⟨-, -, -, -, rfl⟩ := FileHeader.close_eq_ok_iff.mp closed
  obtain ⟨before, finalSize, same, rfl⟩ := here
  refine ⟨_, _, ?_, rfl⟩
  exact same

theorem close_alike (image : Image) (size : Nat) : image.Alike (image.close size).2 := by
  obtain ⟨header, finalSize, same, closed⟩ := image.close_keeps size
  rw [closed]
  exact ⟨same, .refl _, rfl, rfl⟩

-- The induction is over the stages: each one may be the last, and each one keeps the rest.
theorem finalize_alike (image : Image) : image.Alike image.finalize.2 := by
  have reopened : image.Alike image.reopen := ⟨rfl, .refl _, rfl, rfl⟩
  refine Outcome.andThen_keeps reopened fun _ state _ here => ?_
  refine Outcome.andThen_keeps (here.trans state.resolveLinks_adjusts.alike) fun _ state _ here => ?_
  refine Outcome.andThen_keeps (here.trans state.storeFirstGlobal_adjusts.alike) fun _ state _ here => ?_
  refine Outcome.andThen_keeps (here.trans state.layOut_adjusts.alike) fun size state _ here => ?_
  exact here.trans (state.close_alike size)

theorem alike_of_finalize {answer : Except Error Unit} (outcome : image.finalize = (answer, new)) :
    image.Alike new := by
  have alike := image.finalize_alike
  rwa [outcome] at alike

/-- What holds of an image, holds after a failure if it does not depend on the headers of sections nor on the
offset of their table: nothing else is stored before the last check has passed. -/
theorem of_failed {holds : Image → Prop} {e : Error}
    (adjusted : ∀ {old new : Image}, old.Adjusts new → holds old → holds new)
    (moved : ∀ {image : Image} (sectionTableOffset : UInt64), holds image →
      holds { image with header := { image.header with sectionTableOffset } })
    (start : holds image.reopen) (failed : image.finalize = (.error e, new)) : holds new := by
  refine Outcome.andThen_fails holds start (fun _ state here => ?_) failed
  refine Outcome.andThen_fails holds (adjusted state.resolveLinks_adjusts here) fun _ state here => ?_
  refine Outcome.andThen_fails holds (adjusted state.storeFirstGlobal_adjusts here) fun _ state here => ?_
  refine Outcome.andThen_fails holds (adjusted state.layOut_adjusts here) fun size state here => ?_
  refine Outcome.andThen_fails holds (moved _ here) fun index state here => ?_
  exact Outcome.andThen_fails holds here fun header state here done => by simp at done

/-- Only the last stage marks an image as finalized. -/
theorem finalSize_of_failed {e : Error} (failed : image.finalize = (.error e, new)) :
    new.finalSize = none :=
  of_failed (fun adjusts here => adjusts.finalSize.trans here) (fun _ here => here) rfl failed

-- Both numbers are stored together with the mark.
theorem counts_of_failed {e : Error} (failed : image.finalize = (.error e, new)) :
    new.header.sectionCount = image.header.sectionCount ∧
      new.header.nameTableIndex = image.header.nameTableIndex := by
  let uncounted (state : Image) : Prop := state.header.sectionCount = image.header.sectionCount ∧
    state.header.nameTableIndex = image.header.nameTableIndex
  have start : uncounted image.reopen := ⟨rfl, rfl⟩
  refine of_failed (fun adjusts here => ?_) (fun _ here => here) start failed
  simpa only [uncounted, adjusts.header] using here

/-! ## The stages -/

theorem resolveLinks_eq_ok_iff : image.resolveLinks = (.ok (), new) ↔
    ∃ sections, image.sections.resolveLinks = (.ok (), sections) ∧ new = { image with sections } := by
  simp only [resolveLinks, Prod.ext_iff]
  constructor
  · rintro ⟨done, rfl⟩
    exact ⟨_, ⟨done, rfl⟩, rfl⟩
  · rintro ⟨sections, ⟨done, rfl⟩, rfl⟩
    exact ⟨done, rfl⟩

theorem storeFirstGlobal_eq_ok_iff : image.storeFirstGlobal = (.ok (), new) ↔
    ∃ index, image.sections.indexOf? symtabName = some index ∧ image.symbols.firstGlobal < 0x100000000 ∧
      new = { image with sections := image.sections.modify index fun header =>
        { header with info := .ofNat image.symbols.firstGlobal } } := by
  have fits := FixedInt.check_count_iff image.symbols.firstGlobal .word
  simp only [← SectionTable.require_eq_ok_iff]
  rw [show 0x100000000 = Width.word.patterns from rfl, ← fits]
  simp only [storeFirstGlobal]
  cases image.sections.require symtabName with
  | error e => simp
  | ok index =>
    cases (FixedInt.count image.symbols.firstGlobal .word).check with
    | error e => simp
    | ok done => simp [eq_comm]

theorem storeFirstGlobal_of_stored {index : Nat} (found : image.sections.indexOf? symtabName = some index)
    (small : image.symbols.firstGlobal < 0x100000000)
    (stored : ∀ header, image.sections.get? index = some header →
      header.info = .ofNat image.symbols.firstGlobal) : image.storeFirstGlobal = (.ok (), image) := by
  refine storeFirstGlobal_eq_ok_iff.mpr ⟨index, found, small, ?_⟩
  rw [SectionTable.modify_eq_self]
  intro header here
  rw [← stored header here]

theorem layOut_eq_ok_iff : image.layOut = (.ok size, new) ↔
    ∃ added, placeAll image.contentsSize #[] image.contentsStart image.sections.added.toList =
        (.ok size, added) ∧ size < memoryBound ∧
      new = { image with sections := { image.sections with added } } := by
  simp only [layOut]
  rcases placeAll image.contentsSize #[] image.contentsStart image.sections.added.toList with ⟨e | last, added⟩
  · simp
  · simp only [Outcome.andThen_ok]
    split
    · next bounded =>
      constructor
      · intro done
        obtain ⟨same, rfl⟩ := Prod.mk.inj done
        obtain rfl := Except.ok.inj same
        exact ⟨added, rfl, bounded, rfl⟩
      · rintro ⟨_, ⟨⟩, -, rfl⟩
        rfl
    · next unbounded =>
      constructor
      · simp
      · rintro ⟨_, ⟨⟩, bounded, -⟩
        contradiction

theorem close_eq_ok_iff : image.close size = (.ok (), new) ↔
    ∃ index header, image.sections.indexOf? strtabName = some index ∧
      FileHeader.close { image.header with sectionTableOffset := .ofNat FileHeader.recordSize }
        image.sections.size index = .ok header ∧
      new = { image with header, finalSize := some size } := by
  simp only [close, ← SectionTable.require_eq_ok_iff]
  cases image.sections.require strtabName with
  | error e => simp
  | ok index =>
    simp only [Outcome.andThen_ok, Except.ok.injEq]
    constructor
    · intro done
      obtain ⟨header, state, first, rest⟩ := Outcome.andThen_eq_ok done
      obtain ⟨closed, rfl⟩ := Prod.mk.inj first
      exact ⟨index, header, rfl, closed, (Prod.mk.inj rest).2.symm⟩
    · rintro ⟨_, header, rfl, closed, rfl⟩
      rw [closed]
      rfl

/-! ## Settled images -/

/-- The headers describe the image as it is: every stage would store what is there already. -/
structure Settled (image : Image) (size : Nat) : Prop where
  valid : image.sections.validate = .ok ()
  resolved : image.sections.Resolved
  firstGlobal : image.symbols.firstGlobal < 0x100000000
  symtab : ∃ index, image.sections.indexOf? symtabName = some index ∧ ∀ header,
    image.sections.get? index = some header → header.info = .ofNat image.symbols.firstGlobal
  placed : Placed image.contentsSize size image.contentsStart image.sections.added.toList
  bounded : size < memoryBound
  tableOffset : image.header.sectionTableOffset = .ofNat FileHeader.recordSize
  closed : ∃ index, image.sections.indexOf? strtabName = some index ∧
    image.header.close image.sections.size index = .ok image.header
  finalSize : image.finalSize = some size

/-- Finalizing a settled image does nothing. -/
theorem Settled.finalize (settled : image.Settled size) : image.finalize = (.ok (), image) := by
  obtain ⟨valid, resolved, firstGlobal, ⟨symtab, atSymtab, info⟩, placed, bounded, tableOffset,
    ⟨strtab, atStrtab, closed⟩, finalSize⟩ := settled
  have links : image.reopen.resolveLinks = (.ok (), image.reopen) :=
    resolveLinks_eq_ok_iff.mpr ⟨_, SectionTable.applyLinks_of_links resolved, rfl⟩
  have first : image.reopen.storeFirstGlobal = (.ok (), image.reopen) :=
    storeFirstGlobal_of_stored atSymtab firstGlobal info
  have layout : image.reopen.layOut = (.ok size, image.reopen) := by
    refine layOut_eq_ok_iff.mpr ⟨_, placeAll_of_placed placed, bounded, ?_⟩
    simp
  -- The last stage stores the size again, which the first one has dropped.
  have last : image.reopen.close size = (.ok (), image) := by
    refine close_eq_ok_iff.mpr ⟨strtab, image.header, atStrtab, ?_, ?_⟩
    · rw [← tableOffset]
      exact closed
    · rw [← finalSize]
      rfl
  have validated : (image.sections.validate, image.reopen) = (.ok (), image.reopen) := by rw [valid]
  simp only [Image.finalize, reopen] at *
  simp only [validated, links, first, layout, last, Outcome.andThen_ok]

/-- The file header has the true count of sections and the true index of the string table. -/
theorem Settled.counts (settled : image.Settled size) :
    image.header.sectionCount.toNat = image.sections.size ∧
      image.sections.indexOf? strtabName = some image.header.nameTableIndex.toNat := by
  obtain ⟨index, found, closed⟩ := settled.closed
  obtain ⟨-, -, countFits, indexFits, same⟩ := FileHeader.close_eq_ok_iff.mp closed
  have count : image.header.sectionCount.toNat = image.sections.size := by
    rw [same]
    exact UInt16.toNat_ofNat_of_lt' countFits
  have strtab : image.header.nameTableIndex.toNat = index := by
    rw [same]
    exact UInt16.toNat_ofNat_of_lt' indexFits
  exact ⟨count, strtab ▸ found⟩

-- The header of the symbol table has the index of the first symbol that is not local.
theorem Settled.info (settled : image.Settled size) {i : Nat} {header : SectionHeader}
    (found : image.sections.indexOf? symtabName = some i)
    (here : image.sections.get? i = some header) : header.info.toNat = image.symbols.firstGlobal := by
  obtain ⟨index, atSymtab, stored⟩ := settled.symtab
  obtain rfl := Option.some.inj (found.symm.trans atSymtab)
  rw [stored header here]
  exact UInt32.toNat_ofNat_of_lt' settled.firstGlobal

theorem Alike.contentsStart (alike : old.Alike new) : new.contentsStart = old.contentsStart := by
  simp only [Image.contentsStart, SectionTable.encodedSize, alike.sections.size]

theorem Alike.contentsSize (alike : old.Alike new) : new.contentsSize = old.contentsSize := by
  funext entry
  simp only [Image.contentsSize, alike.strings, alike.symbols]

/-- What the stages of a success did: `linked` and `stored` are the section tables in between. -/
structure Stages (image new : Image) (linked stored : SectionTable) (symtab strtab size : Nat) : Prop where
  valid : image.sections.validate = .ok ()
  links : image.sections.resolveLinks = (.ok (), linked)
  atSymtab : linked.indexOf? symtabName = some symtab
  firstGlobal : image.symbols.firstGlobal < 0x100000000
  info : stored = linked.modify symtab fun header =>
    { header with info := .ofNat image.symbols.firstGlobal }
  layout : placeAll new.contentsSize #[] new.contentsStart stored.added.toList =
    (.ok size, new.sections.added)
  bounded : size < memoryBound
  sections : new.sections = { stored with added := new.sections.added }
  atStrtab : new.sections.indexOf? strtabName = some strtab
  closed : FileHeader.close { image.header with sectionTableOffset := .ofNat FileHeader.recordSize }
    new.sections.size strtab = .ok new.header
  finalSize : new.finalSize = some size

theorem stages_of_finalize (done : image.finalize = (.ok (), new)) :
    ∃ linked stored symtab strtab size, image.Stages new linked stored symtab strtab size := by
  obtain ⟨_, opened, validated, done⟩ := Outcome.andThen_eq_ok done
  obtain ⟨valid, rfl⟩ := Prod.mk.inj validated
  obtain ⟨_, linked, links, done⟩ := Outcome.andThen_eq_ok done
  obtain ⟨_, stored, first, done⟩ := Outcome.andThen_eq_ok done
  obtain ⟨size, placed, layout, done⟩ := Outcome.andThen_eq_ok done
  -- The layout looks at the image before it, whose tables are those of the result.
  have alike : stored.Alike new := by
    have laid := stored.layOut_adjusts.alike
    rw [layout] at laid
    have last := placed.close_alike size
    rw [done] at last
    exact laid.trans last
  obtain ⟨table, resolved, rfl⟩ := resolveLinks_eq_ok_iff.mp links
  obtain ⟨symtab, atSymtab, bound, rfl⟩ := storeFirstGlobal_eq_ok_iff.mp first
  obtain ⟨added, order, bounded, rfl⟩ := layOut_eq_ok_iff.mp layout
  obtain ⟨strtab, header, atStrtab, closed, rfl⟩ := close_eq_ok_iff.mp done
  refine ⟨table, _, symtab, strtab, size, valid, resolved, atSymtab, bound, rfl, ?_, bounded, rfl,
    atStrtab, closed, rfl⟩
  rw [alike.contentsStart, alike.contentsSize]
  exact order

namespace Stages

variable {linked stored : SectionTable} {symtab strtab : Nat}
  (stages : image.Stages new linked stored symtab strtab size)

include stages

theorem linked_alike : image.sections.Alike linked := by
  have kept := SectionTable.applyLinks_alike image.sections.links image.sections
  rwa [← SectionTable.resolveLinks, stages.links] at kept

theorem new_alike : linked.Alike new.sections := by
  have placed := placeAll_alike new.contentsSize new.contentsStart stored
  rw [stages.layout, ← stages.sections] at placed
  rw [stages.info] at placed
  refine SectionTable.Alike.trans (SectionTable.modify_alike ?_) placed
  intro header
  rfl

-- The layout changes nothing but offsets and sizes.
theorem map_get? {α : Type} (view : SectionHeader → α)
    (blind : ∀ header offset size, view { header with offset, size } = view header) (i : Nat) :
    (new.sections.get? i).map view = (stored.get? i).map view := by
  have kept := map_get?_placeAll (fun header offset size _ => blind header offset size) new.contentsSize
    new.contentsStart stored i
  rwa [stages.layout, ← stages.sections] at kept

-- Storing the first global index leaves links alone, and so does the layout.
theorem resolved (wellFormed : image.sections.WellFormed) : new.sections.Resolved := by
  refine (wellFormed.resolved stages.links).of_alike stages.new_alike fun i => ?_
  rw [stages.map_get? SectionHeader.link (fun _ _ _ => rfl), stages.info]
  apply SectionTable.map_get?_modify
  intro header
  rfl

theorem info_stored (wellFormed : image.sections.WellFormed) {header : SectionHeader}
    (here : new.sections.get? symtab = some header) :
    header.info = .ofNat image.symbols.firstGlobal := by
  have kept := stages.map_get? SectionHeader.info (fun _ _ _ => rfl) symtab
  -- At index zero nothing would have been stored.
  have positive := (stages.linked_alike.wellFormed wellFormed).ne_zero stages.atSymtab
  rw [here, stages.info, SectionTable.get?_modify_self, if_neg positive] at kept
  obtain ⟨changed, there, same⟩ := Option.map_eq_some_iff.mp kept.symm
  obtain ⟨before, -, rfl⟩ := Option.map_eq_some_iff.mp there
  exact same.symm

end Stages

/-- A success leaves a settled image. -/
theorem settled_of_finalize (wellFormed : image.sections.WellFormed)
    (done : image.finalize = (.ok (), new)) : ∃ size, new.Settled size := by
  have alike := alike_of_finalize done
  obtain ⟨linked, stored, symtab, strtab, size, stages⟩ := stages_of_finalize done
  refine ⟨size, ?_⟩
  exact {
    valid := alike.sections.validate.trans stages.valid
    resolved := stages.resolved wellFormed
    firstGlobal := by
      rw [alike.symbols]
      exact stages.firstGlobal
    symtab := by
      refine ⟨symtab, (stages.new_alike.indexOf? _).trans stages.atSymtab, fun header here => ?_⟩
      rw [alike.symbols]
      exact stages.info_stored wellFormed here
    placed := by
      obtain ⟨entries, same, placed⟩ := placed_of_placeAll (fun entry header => rfl) stages.layout
      rw [same]
      exact placed
    bounded := stages.bounded
    tableOffset := by
      obtain ⟨-, -, -, -, same⟩ := FileHeader.close_eq_ok_iff.mp stages.closed
      rw [same]
    closed := ⟨strtab, stages.atStrtab, FileHeader.close_again stages.closed⟩
    finalSize := stages.finalSize }

end Image

end Elf64
