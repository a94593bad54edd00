import Elf64.Proofs.Replay

/-! Views of images.

A view shows the parts of an image one by one and hides what is of no interest in each of them. It shows
at least what finalizing looks at, and of the fields that finalizing stores it shows nothing that depends
on hidden ones. So images that look the same are finalized with the same answer and look the same
afterwards, whether that succeeds or not (`View.finalize`). -/

set_option autoImplicit false

namespace Elf64

/-! ## Operations on what looks the same -/

/-- The same answer, and states that look the same. -/
def SameOutcomes {σ τ α : Type} (view : σ → τ) (old new : Outcome σ α) : Prop :=
  new.1 = old.1 ∧ view new.2 = view old.2

/-- The operation does the same to states that look the same. -/
def Respects {σ τ α : Type} (view : σ → τ) (operation : σ → Outcome σ α) : Prop :=
  ∀ old new, view new = view old → SameOutcomes view (operation old) (operation new)

section

variable {σ τ α β : Type} {view : σ → τ}

theorem SameOutcomes.map {old new : Outcome σ α} (same : SameOutcomes view old new) (f : α → β) :
    SameOutcomes view (old.map f) (new.map f) := by
  obtain ⟨answer, left⟩ := old
  obtain ⟨answer', right⟩ := new
  obtain ⟨answers, states⟩ := same
  obtain rfl : answer' = answer := answers
  cases answer' <;> exact ⟨rfl, states⟩

theorem Respects.answer {answer : σ → Except Error α}
    (shown : ∀ old new, view new = view old → answer new = answer old) :
    Respects view fun state => (answer state, state) :=
  fun old new same => ⟨shown old new same, same⟩

theorem Respects.andThen {first : σ → Outcome σ α} {next : α → σ → Outcome σ β}
    (start : Respects view first) (continued : ∀ a, Respects view (next a)) :
    Respects view fun state => (first state).andThen next := by
  intro old new same
  obtain ⟨answers, states⟩ := start old new same
  dsimp only
  rcases before : first old with ⟨answer, left⟩
  rcases after : first new with ⟨answer', right⟩
  rw [before, after] at answers states
  obtain rfl : answer' = answer := answers
  cases answer' with
  | error e => exact ⟨rfl, states⟩
  | ok a => exact continued a left right states

-- What a finer function shows of two lists, a coarser one does not tell apart.
theorem map_of_map {γ : Type} {f : α → β} {g : α → γ} (finer : ∀ a b, f a = f b → g a = g b)
    {old new : List α} (same : new.map f = old.map f) : new.map g = old.map g := by
  induction old generalizing new with
  | nil => rw [List.map_eq_nil_iff.mp same]
  | cons first rest ih =>
    obtain ⟨other, others, rfl, here, later⟩ := List.map_eq_cons_iff.mp same
    rw [List.map_cons, List.map_cons, finer other first here, ih later]

theorem map_pair {γ : Type} {f : α → β} {g : α → γ} {old new : List α} (first : new.map f = old.map f)
    (second : new.map g = old.map g) :
    new.map (fun item => (f item, g item)) = old.map fun item => (f item, g item) := by
  have zipped (items : List α) : (items.map fun item => (f item, g item)) = (items.map f).zip (items.map g) :=
    List.zip_map'.symm
  rw [zipped, zipped, first, second]

end

/-! ## Views -/

structure View where
  header : FileHeader → FileHeader
  entry : Section → Section
  strings : StringTable → StringTable
  symbol : Symbol → Symbol
  /-- Closing the header checks these two. -/
  kind : ∀ a b, header a = header b → a.fileType = b.fileType ∧ a.machine = b.machine
  tableOffset : ∀ offset, Fieldwise header fun shown => { shown with sectionTableOffset := offset }
  counts : ∀ count index,
    Fieldwise header fun shown => { shown with sectionCount := count, nameTableIndex := index }
  name : ∀ a b, entry a = entry b → a.name = b.name
  /-- Validation checks these three, and the layout goes by the first and the last. -/
  checked : ∀ a b, entry a = entry b → a.header.type = b.header.type ∧ a.header.addr = b.header.addr ∧
    a.header.addralign = b.header.addralign
  /-- Only the bytes that go into the file are counted. -/
  length : ∀ a b, entry a = entry b → a.header.occupiesFile → a.contents.length = b.contents.length
  offset : ∀ offset,
    Fieldwise entry fun shown => { shown with header := { shown.header with offset } }
  size : ∀ size, Fieldwise entry fun shown => { shown with header := { shown.header with size } }
  link : ∀ link, Fieldwise entry fun shown => { shown with header := { shown.header with link } }
  info : ∀ info, Fieldwise entry fun shown => { shown with header := { shown.header with info } }
  textsSize : ∀ a b, strings a = strings b → a.size = b.size

namespace View

variable (view : View)

def sections (table : SectionTable) : SectionTable := { table with added := table.added.map view.entry }

def symbols (table : SymbolTable) : SymbolTable := { table with added := table.added.map view.symbol }

def image (image : Image) : Image where
  header := view.header image.header
  sections := view.sections image.sections
  strings := view.strings image.strings
  symbols := view.symbols image.symbols
  finalSize := image.finalSize

variable {view} {old new : Image}

theorem sections_eq_iff {old new : SectionTable} : view.sections new = view.sections old ↔
    new.added.toList.map view.entry = old.added.toList.map view.entry ∧ new.index = old.index ∧
      new.links = old.links := by
  simp only [sections, SectionTable.mk.injEq, ← Array.toList_inj, Array.toList_map]

theorem image_eq_iff : view.image new = view.image old ↔
    view.header new.header = view.header old.header ∧
      view.sections new.sections = view.sections old.sections ∧
      view.strings new.strings = view.strings old.strings ∧
      view.symbols new.symbols = view.symbols old.symbols ∧ new.finalSize = old.finalSize := by
  simp only [image, Image.mk.injEq]

section

variable {old new : SectionTable} {i : Nat}

theorem sections_size (same : view.sections new = view.sections old) : new.size = old.size := by
  have shown (table : SectionTable) : (view.sections table).size = table.size := by
    simp [sections, SectionTable.size]
  rw [← shown, same, shown]

theorem sections_indexOf? (same : view.sections new = view.sections old) :
    new.indexOf? = old.indexOf? := by
  funext name
  simp only [SectionTable.indexOf?, (sections_eq_iff.mp same).2.1]

theorem sections_require (same : view.sections new = view.sections old) : new.require = old.require := by
  funext name
  simp only [SectionTable.require, sections_indexOf? same]

theorem sections_check (same : view.sections new = view.sections old) (name : String)
    {header header' : SectionHeader} (valid : header'.validate = header.validate) :
    new.check name header' = old.check name header := by
  simp only [SectionTable.check, (sections_eq_iff.mp same).2.1, valid]

theorem sections_push (same : view.sections new = view.sections old) {entry entry' : Section}
    (entries : view.entry entry' = view.entry entry) :
    view.sections (new.push entry') = view.sections (old.push entry) := by
  obtain ⟨added, index, links⟩ := sections_eq_iff.mp same
  refine sections_eq_iff.mpr ⟨?_, ?_, links⟩
  · simp [SectionTable.push, added, entries]
  · simp only [SectionTable.push, index, sections_size same, view.name entry' entry entries]

theorem sections_modify (same : view.sections new = view.sections old)
    {f g : SectionHeader → SectionHeader}
    (changed : ∀ a b, old.get? i = some a.header → new.get? i = some b.header →
      view.entry b = view.entry a →
      view.entry { b with header := g b.header } = view.entry { a with header := f a.header }) :
    view.sections (new.modify i g) = view.sections (old.modify i f) := by
  obtain ⟨added, index, links⟩ := sections_eq_iff.mp same
  refine sections_eq_iff.mpr ⟨?_, by simpa using index, by simpa using links⟩
  cases i with
  | zero => exact added
  | succ i =>
    simp only [SectionTable.modify, Array.toList_modify]
    refine map_modify_of_map added fun a b here there entries => changed a b ?_ ?_ entries
    · rw [Array.getElem?_toList] at here
      simp [SectionTable.get?, here]
    · rw [Array.getElem?_toList] at there
      simp [SectionTable.get?, there]

theorem sections_store (same : view.sections new = view.sections old) {f : SectionHeader → SectionHeader}
    (stored : Fieldwise view.entry fun entry => { entry with header := f entry.header }) :
    view.sections (new.modify i f) = view.sections (old.modify i f) :=
  sections_modify same fun a b _ _ entries => stored b a entries

theorem sections_link (same : view.sections new = view.sections old) (source target : String) :
    SameOutcomes view.sections (old.link source target) (new.link source target) := by
  obtain ⟨added, index, links⟩ := sections_eq_iff.mp same
  simp only [SectionTable.link, sections_require same]
  cases old.require source with
  | error e => exact ⟨rfl, same⟩
  | ok i =>
    simp only [Outcome.andThen_ok, links]
    exact ⟨rfl, sections_eq_iff.mpr ⟨added, index, rfl⟩⟩

/-! ## The stages -/

theorem header_validate {a b : Section} (same : view.entry a = view.entry b) :
    a.header.validate = b.header.validate := by
  obtain ⟨type, addr, addralign⟩ := view.checked a b same
  simp only [SectionHeader.validate, SectionHeader.checkAlignment, type, addr, addralign]

theorem sections_validate (same : view.sections new = view.sections old) :
    new.validate = old.validate := by
  have checks (table : SectionTable) : table.validate =
      ((SectionHeader.null.validate :: table.added.toList.map fun entry => entry.header.validate).forM id) := by
    simp [SectionTable.validate, SectionTable.headers]
  rw [checks, checks, map_of_map (fun _ _ => header_validate) (sections_eq_iff.mp same).1]

theorem applyLinks (links : List (Nat × String)) :
    Respects view.sections (SectionTable.applyLinks links) := by
  induction links with
  | nil => exact Respects.answer fun _ _ _ => rfl
  | cons link rest ih =>
    intro old new same
    simp only [SectionTable.applyLinks, sections_indexOf? same]
    split
    · exact ⟨rfl, same⟩
    · apply ih
      exact sections_store same (view.link _)

end

end View

/-! ## The layout -/

-- The alignment stands apart, so that another one that is equal can take its place.
theorem SectionHeader.place_eq {header : SectionHeader} {size cursor alignment : Nat}
    (aligned : header.addralign.toNat = alignment) : header.place size cursor =
      if 1 < alignment ∧ offsetBound ≤ cursor + (alignment - 1) then (.error (.tooLarge cursor), header)
      else
        let offset := alignUp cursor alignment
        if header.occupiesFile then
          (if offset + size < offsetBound then .ok (offset + size) else .error (.tooLarge offset),
            { header with offset := .ofNat offset, size := .ofNat size })
        else (.ok cursor, { header with offset := .ofNat offset }) := by
  subst aligned
  simp only [place, occupiesFile_move]
  split
  · rfl
  · split
    · split <;> rfl
    · rfl

namespace View

variable {view : View} {old new : Image}

theorem occupiesFile {a b : Section} (same : view.entry b = view.entry a) :
    b.header.occupiesFile = a.header.occupiesFile :=
  congrArg SectionType.occupiesFile (view.checked b a same).1

theorem place {a b : Section} (same : view.entry b = view.entry a) {room room' : Nat}
    (rooms : a.header.occupiesFile → room' = room) (cursor : Nat) :
    (b.header.place room' cursor).1 = (a.header.place room cursor).1 ∧
      view.entry { b with header := (b.header.place room' cursor).2 } =
        view.entry { a with header := (a.header.place room cursor).2 } := by
  have aligned := congrArg UInt64.toNat (view.checked b a same).2.2
  rw [SectionHeader.place_eq aligned, SectionHeader.place_eq rfl, occupiesFile same]
  split
  · exact ⟨rfl, same⟩
  · have moved := view.offset (.ofNat (alignUp cursor a.header.addralign.toNat)) b a same
    split
    · next occupies =>
      rw [rooms occupies]
      exact ⟨rfl, view.size (.ofNat room) _ _ moved⟩
    · exact ⟨rfl, moved⟩

theorem placeAll {sizeOf sizeOf' : Section → Nat}
    (rooms : ∀ a b, view.entry b = view.entry a → a.header.occupiesFile → sizeOf' b = sizeOf a)
    {old new : List Section} (same : new.map view.entry = old.map view.entry) (cursor : Nat)
    {before after : Array Section}
    (placed : after.toList.map view.entry = before.toList.map view.entry) :
    (Elf64.placeAll sizeOf' after cursor new).1 = (Elf64.placeAll sizeOf before cursor old).1 ∧
      (Elf64.placeAll sizeOf' after cursor new).2.toList.map view.entry =
        (Elf64.placeAll sizeOf before cursor old).2.toList.map view.entry := by
  induction old generalizing new cursor before after with
  | nil =>
    obtain rfl := List.map_eq_nil_iff.mp same
    exact ⟨rfl, placed⟩
  | cons entry rest ih =>
    obtain ⟨other, others, rfl, here, later⟩ := List.map_eq_cons_iff.mp same
    have steps := place here (rooms entry other here) cursor
    rw [Elf64.placeAll, Elf64.placeAll]
    rcases first : entry.header.place (sizeOf entry) cursor with ⟨answer, header⟩
    rcases second : other.header.place (sizeOf' other) cursor with ⟨answer', header'⟩
    rw [first, second] at steps
    obtain ⟨answers, moved⟩ := steps
    obtain rfl : answer' = answer := answers
    cases answer' with
    | error e => exact ⟨rfl, by simp [placed, moved, later]⟩
    | ok next =>
      apply ih later
      simp [placed, moved]

theorem symbols_eq_iff {old new : SymbolTable} : view.symbols new = view.symbols old ↔
    new.added.toList.map view.symbol = old.added.toList.map view.symbol ∧ new.index = old.index ∧
      new.locals = old.locals := by
  simp only [symbols, SymbolTable.mk.injEq, ← Array.toList_inj, Array.toList_map]

theorem symbols_size {old new : SymbolTable} (same : view.symbols new = view.symbols old) :
    new.size = old.size := by
  simpa [SymbolTable.size] using congrArg List.length (symbols_eq_iff.mp same).1

theorem symbols_check {old new : SymbolTable} (same : view.symbols new = view.symbols old) (name : String)
    (symbol : Symbol) : new.check name symbol = old.check name symbol := by
  obtain ⟨-, index, locals⟩ := symbols_eq_iff.mp same
  simp only [SymbolTable.check, SymbolTable.checkName, SymbolTable.checkOrder, index, locals,
    symbols_size same]

theorem symbols_push {old new : SymbolTable} (same : view.symbols new = view.symbols old) (name : String)
    {symbol symbol' : Symbol} (shown : view.symbol symbol' = view.symbol symbol)
    (binding : symbol'.binding = symbol.binding) :
    view.symbols (new.push name symbol') = view.symbols (old.push name symbol) := by
  obtain ⟨added, index, locals⟩ := symbols_eq_iff.mp same
  refine symbols_eq_iff.mpr ⟨?_, ?_, ?_⟩
  · simp [SymbolTable.push, added, shown]
  · simp only [SymbolTable.push, index, symbols_size same]
  · simp only [SymbolTable.push, locals, binding]

theorem contentsSize (same : view.image new = view.image old) (a b : Section)
    (entries : view.entry b = view.entry a) (occupies : a.header.occupiesFile) :
    new.contentsSize b = old.contentsSize a := by
  obtain ⟨-, -, strings, symbols, -⟩ := image_eq_iff.mp same
  rw [← occupiesFile entries] at occupies
  simp only [Image.contentsSize, view.name b a entries, SymbolTable.encodedSize, symbols_size symbols,
    view.textsSize _ _ strings, view.length b a entries occupies]

theorem placedAlike (view : View) {a b : Section} (image : Image) (entries : view.entry b = view.entry a) :
    a.PlacedAlike image.contentsSize b where
  addralign := (view.checked b a entries).2.2
  occupiesFile := occupiesFile entries
  size := contentsSize rfl a b entries

theorem contentsStart (same : view.image new = view.image old) : new.contentsStart = old.contentsStart := by
  simp only [Image.contentsStart, SectionTable.encodedSize, sections_size (image_eq_iff.mp same).2.1]

/-! ## Finalizing -/

theorem image_reopen (same : view.image new = view.image old) :
    view.image new.reopen = view.image old.reopen := by
  obtain ⟨header, sections, strings, symbols, -⟩ := image_eq_iff.mp same
  exact image_eq_iff.mpr ⟨header, sections, strings, symbols, rfl⟩

theorem image_withSections (same : view.image new = view.image old) {before after : SectionTable}
    (changed : view.sections after = view.sections before) :
    view.image { new with sections := after } = view.image { old with sections := before } := by
  obtain ⟨header, -, strings, symbols, finalSize⟩ := image_eq_iff.mp same
  exact image_eq_iff.mpr ⟨header, changed, strings, symbols, finalSize⟩

theorem image_withHeader (same : view.image new = view.image old) {before after : FileHeader}
    (changed : view.header after = view.header before) {size size' : Option Nat} (sizes : size' = size) :
    view.image { new with header := after, finalSize := size' } =
      view.image { old with header := before, finalSize := size } := by
  obtain ⟨-, sections, strings, symbols, -⟩ := image_eq_iff.mp same
  exact image_eq_iff.mpr ⟨changed, sections, strings, symbols, sizes⟩

theorem resolveLinks : Respects view.image Image.resolveLinks := by
  intro old new same
  have sections := (image_eq_iff.mp same).2.1
  have links := (sections_eq_iff.mp sections).2.2
  have resolved := view.applyLinks old.sections.links old.sections new.sections sections
  rw [show SectionTable.applyLinks old.sections.links new.sections = new.sections.resolveLinks by
    rw [← links]; rfl] at resolved
  exact ⟨resolved.1, image_withSections same resolved.2⟩

theorem storeFirstGlobal : Respects view.image Image.storeFirstGlobal := by
  intro old new same
  obtain ⟨-, sections, -, symbols, -⟩ := image_eq_iff.mp same
  have first : new.symbols.firstGlobal = old.symbols.firstGlobal := (symbols_eq_iff.mp symbols).2.2
  simp only [Image.storeFirstGlobal, sections_require sections, first]
  cases old.sections.require symtabName with
  | error e => exact ⟨rfl, same⟩
  | ok index =>
    cases (FixedInt.count old.symbols.firstGlobal .word).check with
    | error e => exact ⟨rfl, same⟩
    | ok done => exact ⟨rfl, image_withSections same (sections_store sections (view.info _))⟩

theorem layOut : Respects view.image Image.layOut := by
  intro old new same
  obtain ⟨added, index, links⟩ := sections_eq_iff.mp (image_eq_iff.mp same).2.1
  have unplaced : (#[] : Array Section).toList.map view.entry = (#[] : Array Section).toList.map view.entry :=
    rfl
  have steps := placeAll (contentsSize same) added old.contentsStart unplaced
  simp only [Image.layOut, contentsStart same]
  rcases first : Elf64.placeAll old.contentsSize #[] old.contentsStart old.sections.added.toList
    with ⟨answer, left⟩
  rcases second : Elf64.placeAll new.contentsSize #[] old.contentsStart new.sections.added.toList
    with ⟨answer', right⟩
  rw [first, second] at steps
  obtain ⟨answers, placed⟩ := steps
  obtain rfl : answer' = answer := answers
  have tables : view.sections { new.sections with added := right } =
      view.sections { old.sections with added := left } := sections_eq_iff.mpr ⟨placed, index, links⟩
  have moved := image_withSections same tables
  cases answer' with
  | error e => exact ⟨rfl, moved⟩
  | ok size =>
    simp only [Outcome.andThen_ok]
    split <;> exact ⟨rfl, moved⟩

theorem header_close {old new : FileHeader} (same : view.header new = view.header old) (count index : Nat) :
    (∃ e, old.close count index = .error e ∧ new.close count index = .error e) ∨
      ∃ before after, old.close count index = .ok before ∧ new.close count index = .ok after ∧
        view.header after = view.header before := by
  obtain ⟨fileType, machine⟩ := view.kind new old same
  have fileTypes := congrArg FileType.check fileType
  have machines := congrArg Machine.check machine
  simp only [FileHeader.close, fileTypes, machines]
  cases old.fileType.check with
  | error e => exact .inl ⟨e, rfl, rfl⟩
  | ok done =>
    cases old.machine.check with
    | error e => exact .inl ⟨e, rfl, rfl⟩
    | ok done =>
      cases (FixedInt.count count .half).check with
      | error e => exact .inl ⟨e, rfl, rfl⟩
      | ok done =>
        cases (FixedInt.count index .half).check with
        | error e => exact .inl ⟨e, rfl, rfl⟩
        | ok done => exact .inr ⟨_, _, rfl, rfl, view.counts _ _ new old same⟩

theorem close (size : Nat) : Respects view.image (Image.close · size) := by
  intro old new same
  obtain ⟨header, sections, -, -, finalSize⟩ := image_eq_iff.mp same
  have moved := view.tableOffset (.ofNat FileHeader.recordSize) _ _ header
  have opened := image_withHeader same moved finalSize
  simp only [Image.close, sections_require sections]
  cases old.sections.require strtabName with
  | error e => exact ⟨rfl, opened⟩
  | ok index =>
    simp only [Outcome.andThen_ok, sections_size sections]
    rcases header_close moved old.sections.size index with ⟨e, before, after⟩ | ⟨_, _, before, after, closed⟩
    · rw [before, after]
      exact ⟨rfl, opened⟩
    · rw [before, after]
      exact ⟨rfl, image_withHeader same closed rfl⟩

theorem afterChecks (same : view.image new = view.image old) {α : Type} {first second : Except Error Unit}
    {answer : α} {before after : Image} (passed : view.image after = view.image before) :
    SameOutcomes view.image (old.afterChecks first second answer before)
      (new.afterChecks first second answer after) :=
  Image.afterChecks_related (fun old new => view.image new = view.image old) same (image_reopen same)
    fun _ => passed

/-- Images that look the same are finalized with the same answer, and look the same afterwards. -/
theorem finalize (view : View) : Respects view.image Image.finalize := by
  intro old new same
  have stages : Respects view.image fun image =>
      Outcome.andThen (image.sections.validate, image) fun _ image =>
      Outcome.andThen image.resolveLinks fun _ image =>
      Outcome.andThen image.storeFirstGlobal fun _ image =>
      Outcome.andThen image.layOut fun size image => image.close size :=
    (Respects.answer fun _ _ same => sections_validate (image_eq_iff.mp same).2.1).andThen fun _ =>
      resolveLinks.andThen fun _ => storeFirstGlobal.andThen fun _ => layOut.andThen close
  exact stages _ _ (image_reopen same)

end View

end Elf64
