import Elf64.Proofs.File
import Elf64.Proofs.Views

/-! Values that the image computes anew.

What an entry says about its place in the file, where its name is and, if its section occupies the file,
how large that is, is overwritten before anything is written, and bytes of a section that does not
occupy the file are kept but never written. So runs that differ in nothing else answer the same and
come to the same file (`Run.recomputed`). -/

set_option autoImplicit false

namespace Elf64

/-! ## What the layout decides -/

/-- A header without the offset, and without the size if the section occupies the file. -/
def SectionHeader.unplaced (header : SectionHeader) : SectionHeader :=
  { header with offset := 0, size := if header.occupiesFile then 0 else header.size }

/-- A section without its place, and without bytes that are not in the file. -/
def Section.unplaced (entry : Section) : Section :=
  { entry with
    header := entry.header.unplaced
    contents := if entry.header.occupiesFile then entry.contents else [] }

def FileHeader.unplaced (header : FileHeader) : FileHeader := { header with sectionTableOffset := 0 }

namespace SectionHeader

variable {a b : SectionHeader}

theorem outline_unplaced (header : SectionHeader) : header.unplaced.outline = header.outline := rfl

theorem unplaced_eq_iff : a.unplaced = b.unplaced ↔ a.outline = b.outline ∧
    (¬ a.occupiesFile → a.size = b.size) ∧ a.link = b.link ∧ a.info = b.info := by
  constructor
  · intro same
    have outline : a.outline = b.outline := by rw [← a.outline_unplaced, same, outline_unplaced]
    have size := congrArg SectionHeader.size same
    have link := congrArg SectionHeader.link same
    have info := congrArg SectionHeader.info same
    simp only [unplaced, ← occupiesFile_of_outline outline] at size
    refine ⟨outline, fun vacant => ?_, link, info⟩
    rwa [if_neg vacant, if_neg vacant] at size
  · rintro ⟨outline, size, link, info⟩
    refine eq_of_outline outline rfl ?_ link info
    simp only [unplaced, ← occupiesFile_of_outline outline]
    split
    · rfl
    · next vacant => exact size vacant

theorem occupiesFile_of_unplaced (same : a.unplaced = b.unplaced) : a.occupiesFile = b.occupiesFile :=
  occupiesFile_of_outline (unplaced_eq_iff.mp same).1

-- The place is all that has been left out.
theorem eq_of_unplaced (same : a.unplaced = b.unplaced) (span : a.span = b.span) : a = b := by
  obtain ⟨outline, size, link, info⟩ := unplaced_eq_iff.mp same
  obtain ⟨offset, sizes⟩ := Prod.mk.inj span
  refine eq_of_outline outline offset ?_ link info
  by_cases occupies : a.occupiesFile
  · rwa [← occupiesFile_of_unplaced same, if_pos occupies, if_pos occupies] at sizes
  · exact size occupies

-- Another name in both takes the place of the one that they have in common.
theorem unplaced_renamed (same : { b with name := a.name }.unplaced = a.unplaced) (name : UInt32) :
    { b with name }.unplaced = { a with name }.unplaced := by
  have renamed := congrArg (fun header : SectionHeader => { header with name }) same
  exact renamed

theorem validate_of_unplaced (same : { b with name := a.name }.unplaced = a.unplaced) :
    b.validate = a.validate := by
  have valid := congrArg SectionHeader.validate (unplaced_eq_iff.mp same).1
  exact valid

end SectionHeader

theorem Section.unplaced_eq_iff {a b : Section} : a.unplaced = b.unplaced ↔
    a.name = b.name ∧ a.header.unplaced = b.header.unplaced ∧
      (a.header.occupiesFile → a.contents = b.contents) := by
  constructor
  · intro same
    obtain ⟨name, header, contents⟩ := Section.mk.inj same
    rw [← SectionHeader.occupiesFile_of_unplaced header] at contents
    refine ⟨name, header, fun occupies => ?_⟩
    rwa [if_pos occupies, if_pos occupies] at contents
  · rintro ⟨name, header, contents⟩
    refine Section.mk.injEq .. ▸ ⟨name, header, ?_⟩
    rw [← SectionHeader.occupiesFile_of_unplaced header]
    split
    · next occupies => exact contents occupies
    · rfl

/-- Everything but the places that the layout decides and the bytes that are not in the file. -/
def View.unplaced : View where
  header := FileHeader.unplaced
  entry := Section.unplaced
  strings := id
  symbol := id
  kind a b same := by
    have outline := congrArg FileHeader.outline same
    obtain ⟨fileType, machine, -⟩ := FileHeader.outline_eq_iff.mp outline
    exact ⟨fileType, machine⟩
  tableOffset offset a b same := same
  counts count index a b same := by
    simp only [FileHeader.unplaced, FileHeader.mk.injEq] at same ⊢
    simp only [same, and_self]
  name a b same := (Section.unplaced_eq_iff.mp same).1
  checked a b same := by
    obtain ⟨-, header, -⟩ := Section.unplaced_eq_iff.mp same
    obtain ⟨-, type, -, addr, addralign, -⟩ :=
      SectionHeader.outline_eq_iff.mp (SectionHeader.unplaced_eq_iff.mp header).1
    exact ⟨type, addr, addralign⟩
  length a b same occupies := congrArg List.length ((Section.unplaced_eq_iff.mp same).2.2 occupies)
  offset offset a b same := same
  size size a b same := by
    obtain ⟨name, header, contents⟩ := Section.unplaced_eq_iff.mp same
    obtain ⟨outline, -, link, info⟩ := SectionHeader.unplaced_eq_iff.mp header
    refine Section.unplaced_eq_iff.mpr ⟨name, SectionHeader.unplaced_eq_iff.mpr ?_, contents⟩
    exact ⟨outline, fun _ => rfl, link, info⟩
  link link a b same := by
    obtain ⟨name, header, contents⟩ := Section.unplaced_eq_iff.mp same
    obtain ⟨outline, size, -, info⟩ := SectionHeader.unplaced_eq_iff.mp header
    refine Section.unplaced_eq_iff.mpr ⟨name, SectionHeader.unplaced_eq_iff.mpr ?_, contents⟩
    exact ⟨outline, size, rfl, info⟩
  info info a b same := by
    obtain ⟨name, header, contents⟩ := Section.unplaced_eq_iff.mp same
    obtain ⟨outline, size, link, -⟩ := SectionHeader.unplaced_eq_iff.mp header
    refine Section.unplaced_eq_iff.mpr ⟨name, SectionHeader.unplaced_eq_iff.mpr ?_, contents⟩
    exact ⟨outline, size, link, rfl⟩
  textsSize a b same := congrArg StringTable.size same

namespace Image

variable {old new : Image} {size size' : Nat}

theorem unplaced_eq_iff : View.unplaced.image new = View.unplaced.image old ↔
    new.header.unplaced = old.header.unplaced ∧
      View.unplaced.sections new.sections = View.unplaced.sections old.sections ∧
      new.strings = old.strings ∧ new.symbols = old.symbols ∧ new.finalSize = old.finalSize := by
  have symbols (table : SymbolTable) : View.unplaced.symbols table = table := by
    simp [View.symbols, View.unplaced]
  rw [View.image_eq_iff, symbols, symbols]
  exact Iff.rfl

/-! ## Settled images -/

-- The bytes of sections that do not occupy the file do not matter.
theorem body_congr {contents contents' : Section → Bytes} {old new : List Section}
    (agree : List.Forall₂ (fun a b => b.header = a.header ∧
      (a.header.occupiesFile → contents' b = contents a)) old new) (cursor : Nat) :
    body contents' cursor new = body contents cursor old := by
  induction agree generalizing cursor with
  | nil => rfl
  | cons here later ih =>
    obtain ⟨header, bytes⟩ := here
    rw [body, body, header]
    split
    · next occupies =>
      dsimp only
      rw [bytes occupies, ih]
    · exact ih cursor

theorem Settled.header_of_unplaced (first : old.Settled size) (second : new.Settled size')
    (same : new.header.unplaced = old.header.unplaced) : new.header = old.header := by
  have offset := second.tableOffset.trans first.tableOffset.symm
  cases here : new.header
  cases there : old.header
  simp_all [FileHeader.unplaced]

-- The layout has put the sections in the same places again.
theorem Settled.headers_of_unplaced (first : old.Settled size) (second : new.Settled size')
    (same : View.unplaced.image new = View.unplaced.image old) :
    new.sections.added.toList.map (fun entry => (entry.unplaced, entry.header)) =
      old.sections.added.toList.map fun entry => (entry.unplaced, entry.header) := by
  obtain ⟨-, sections, strings, symbols, -⟩ := unplaced_eq_iff.mp same
  have added := (View.sections_eq_iff.mp sections).1
  have room : new.contentsSize = old.contentsSize := by
    funext entry
    simp only [contentsSize, strings, symbols]
  have placed := second.placed
  rw [room, View.contentsStart same] at placed
  have alike : List.Forall₂ (Section.PlacedAlike old.contentsSize) old.sections.added.toList
      new.sections.added.toList := by
    refine forall₂_of_map (fun a b entries => ?_) added
    exact View.unplaced.placedAlike old entries
  obtain ⟨-, spans⟩ := first.placed.unique placed alike
  refine map_of_map (fun a b same => ?_) (map_pair added spans)
  obtain ⟨entries, span⟩ := Prod.mk.inj same
  obtain ⟨-, header, -⟩ := Section.unplaced_eq_iff.mp entries
  exact Prod.ext entries (SectionHeader.eq_of_unplaced header span)

theorem contents_eq (same : View.unplaced.image new = View.unplaced.image old) {a b : Section}
    (entries : b.unplaced = a.unplaced) (occupies : a.header.occupiesFile) :
    new.contents b = old.contents a := by
  obtain ⟨-, -, strings, symbols, -⟩ := unplaced_eq_iff.mp same
  obtain ⟨name, header, contents⟩ := Section.unplaced_eq_iff.mp entries
  rw [← SectionHeader.occupiesFile_of_unplaced header] at occupies
  simp only [Image.contents, name, strings, symbols, contents occupies]

/-- Settled images that look the same are written as the same bytes. -/
theorem Settled.bytes_eq (first : old.Settled size) (second : new.Settled size')
    (same : View.unplaced.image new = View.unplaced.image old) : new.bytes = old.bytes := by
  have entries := first.headers_of_unplaced second same
  have headers : new.sections.added.toList.map Section.header = old.sections.added.toList.map Section.header :=
    map_of_map (fun _ _ same => (Prod.mk.inj same).2) entries
  have table : new.sections.encode .little = old.sections.encode .little := by
    simp only [SectionTable.encode, SectionTable.headers, headers]
  have agree : List.Forall₂ (fun a b : Section => b.header = a.header ∧
      (a.header.occupiesFile → new.contents b = old.contents a)) old.sections.added.toList
        new.sections.added.toList := by
    refine forall₂_of_map (fun a b entries => ?_) entries
    obtain ⟨unplaced, header⟩ := Prod.mk.inj entries
    exact ⟨header, contents_eq same unplaced⟩
  rw [bytes, bytes, first.header_of_unplaced second (unplaced_eq_iff.mp same).1, table,
    View.contentsStart same, body_congr agree]

theorem serialize_of_unplaced (first : old.WellFormed) (second : new.WellFormed)
    (same : View.unplaced.image new = View.unplaced.image old) (reserves : Nat → Bool) :
    new.serialize reserves = old.serialize reserves := by
  obtain ⟨-, -, -, -, finalSize⟩ := unplaced_eq_iff.mp same
  cases here : old.finalSize with
  | none => simp only [serialize, finalSize, here]
  | some size =>
    have there := finalSize.trans here
    rw [serialize_eq first here reserves, serialize_eq second there reserves,
      (first.settled size here).bytes_eq (second.settled size there) same]

end Image

/-! ## Runs that differ in what is computed anew -/

namespace Edit

/-- The second change, made to the second image, is the first one with other values for what the image
computes anew. Of edits to headers only the values count that they assign to the headers there are. -/
inductive Restates (old new : Image) : Edit → Edit → Prop where
  | addString (text : String) : Restates old new (addString text) (addString text)
  | addSection (name : String) (header : SectionHeader) (contents : Bytes) (header' : SectionHeader)
      (contents' : Bytes) (same : { header' with name := header.name }.unplaced = header.unplaced)
      (bytes : header.occupiesFile → contents' = contents) :
      Restates old new (addSection name header contents) (addSection name header' contents')
  | addSymbol (name : String) (symbol : Symbol) (offset : UInt32)
      (unnamed : name = "" → offset = symbol.name) :
      Restates old new (addSymbol name symbol) (addSymbol name { symbol with name := offset })
  | link (source target : String) : Restates old new (link source target) (link source target)
  | editHeader (f g : FileHeader → FileHeader)
      (same : new.header.unplaced = old.header.unplaced →
        (g new.header).unplaced = (f old.header).unplaced) :
      Restates old new (editHeader f) (editHeader g)
  | editSection (name : String) (f g : SectionHeader → SectionHeader)
      (same : ∀ a b, old.sections.find? name = some a → new.sections.find? name = some b →
        b.unplaced = a.unplaced →
        (f a).occupiesFile = a.occupiesFile ∧ (g b).unplaced = (f a).unplaced) :
      Restates old new (editSection name f) (editSection name g)
  | finalize : Restates old new finalize finalize

/-- The two lists of changes, made to the two images, do so one after the other. -/
def RestateAll : List Edit → List Edit → Image → Image → Prop
  | [], [], _, _ => True
  | edit :: rest, edit' :: rest', old, new =>
    Restates old new edit edit' ∧ RestateAll rest rest' (edit.apply old).2 (edit'.apply new).2
  | _, _, _, _ => False

end Edit

namespace Image

variable {old new : Image} {edit edit' : Edit}

theorem addString_unplaced (same : View.unplaced.image new = View.unplaced.image old) (text : String) :
    SameOutcomes View.unplaced.image (old.addString text) (new.addString text) := by
  obtain ⟨header, sections, strings, symbols, -⟩ := unplaced_eq_iff.mp same
  simp only [Image.addString, strings]
  exact ⟨rfl, unplaced_eq_iff.mpr ⟨header, sections, rfl, symbols, rfl⟩⟩

theorem addSection_unplaced (same : View.unplaced.image new = View.unplaced.image old) {name : String}
    {header header' : SectionHeader} {contents contents' : Bytes}
    (restated : { header' with name := header.name }.unplaced = header.unplaced)
    (bytes : header.occupiesFile → contents' = contents) :
    SameOutcomes View.unplaced.image (old.addSection name header contents)
      (new.addSection name header' contents') := by
  obtain ⟨fileHeader, sections, strings, symbols, -⟩ := unplaced_eq_iff.mp same
  have valid := SectionHeader.validate_of_unplaced restated
  rw [addSection_eq, addSection_eq, View.sections_check sections name valid, strings,
    View.sections_size sections]
  refine View.afterChecks same <| unplaced_eq_iff.mpr
    ⟨fileHeader, View.sections_push sections ?_, ?_, symbols, rfl⟩
  · -- The offset of the name takes the place of whatever was there.
    have named := SectionHeader.unplaced_renamed restated (.ofNat old.strings.size)
    rw [strings]
    refine Section.unplaced_eq_iff.mpr ⟨rfl, named, fun occupies => bytes ?_⟩
    exact (SectionHeader.occupiesFile_of_unplaced named).symm.trans occupies
  · simp only [Image.pushSection, strings]

theorem addSymbol_unplaced (same : View.unplaced.image new = View.unplaced.image old) {name : String}
    {symbol : Symbol} {offset : UInt32} (unnamed : name = "" → offset = symbol.name) :
    SameOutcomes View.unplaced.image (old.addSymbol name symbol)
      (new.addSymbol name { symbol with name := offset }) := by
  obtain ⟨header, sections, strings, symbols, -⟩ := unplaced_eq_iff.mp same
  have checked : old.symbols.check name { symbol with name := offset } = old.symbols.check name symbol := rfl
  rw [addSymbol_eq, addSymbol_eq, strings, symbols, checked]
  refine View.afterChecks same ?_
  rw [pushSymbol_eq, pushSymbol_eq, strings, symbols]
  refine unplaced_eq_iff.mpr ⟨header, sections, rfl, ?_, rfl⟩
  split
  · next empty => rw [unnamed empty]
  · rfl

theorem link_unplaced (same : View.unplaced.image new = View.unplaced.image old) (source target : String) :
    SameOutcomes View.unplaced.image (old.link source target) (new.link source target) := by
  obtain ⟨header, sections, strings, symbols, finalSize⟩ := unplaced_eq_iff.mp same
  obtain ⟨answers, linked⟩ := View.sections_link sections source target
  rw [link_eq, link_eq]
  refine ⟨answers, unplaced_eq_iff.mpr ⟨header, linked, strings, symbols, ?_⟩⟩
  simp only [answers, finalSize]

theorem editSection_unplaced (same : View.unplaced.image new = View.unplaced.image old) {name : String}
    {f g : SectionHeader → SectionHeader}
    (changed : ∀ a b, old.sections.find? name = some a → new.sections.find? name = some b →
      b.unplaced = a.unplaced → (f a).occupiesFile = a.occupiesFile ∧ (g b).unplaced = (f a).unplaced) :
    View.unplaced.image (new.editSection name g) = View.unplaced.image (old.editSection name f) := by
  obtain ⟨header, sections, strings, symbols, -⟩ := unplaced_eq_iff.mp same
  have index := congrFun (View.sections_indexOf? sections) name
  cases found : old.sections.indexOf? name with
  | none =>
    simp only [Image.editSection, index, found]
    exact View.image_reopen same
  | some i =>
    have again := index.trans found
    simp only [Image.editSection, found, again]
    refine unplaced_eq_iff.mpr ⟨header, View.sections_modify sections ?_, strings, symbols, rfl⟩
    intro a b here there entries
    obtain ⟨named, headers, contents⟩ := Section.unplaced_eq_iff.mp entries
    obtain ⟨occupies, assigned⟩ := changed a.header b.header
      ((SectionTable.find?_of_indexOf? found).trans here)
      ((SectionTable.find?_of_indexOf? again).trans there) headers
    -- What was in the file before is in it now, so that its bytes have been the same.
    refine Section.unplaced_eq_iff.mpr ⟨named, assigned, fun now => contents ?_⟩
    rw [SectionHeader.occupiesFile_of_unplaced headers, ← occupies,
      ← SectionHeader.occupiesFile_of_unplaced assigned]
    exact now

/-- Changes that differ in nothing else do the same to images that look the same. -/
theorem apply_unplaced (same : View.unplaced.image new = View.unplaced.image old)
    (restates : edit.Restates old new edit') :
    SameOutcomes View.unplaced.image (edit.apply old) (edit'.apply new) := by
  obtain ⟨header, sections, strings, symbols, -⟩ := unplaced_eq_iff.mp same
  cases restates with
  | addString text => exact (addString_unplaced same text).map _
  | addSection name header contents header' contents' restated bytes =>
    exact (addSection_unplaced same restated bytes).map _
  | addSymbol name symbol offset unnamed => exact (addSymbol_unplaced same unnamed).map _
  | link source target => exact (link_unplaced same source target).map _
  | editHeader f g restated =>
    exact ⟨rfl, unplaced_eq_iff.mpr ⟨restated header, sections, strings, symbols, rfl⟩⟩
  | editSection name f g changed =>
    refine ⟨?_, editSection_unplaced same changed⟩
    simp only [Edit.apply, View.sections_indexOf? sections]
  | finalize => exact (View.unplaced.finalize old new same).map _

end Image

theorem Edit.applyAll_unplaced {edits edits' : List Edit} {old new : Image}
    (restates : RestateAll edits edits' old new)
    (same : View.unplaced.image new = View.unplaced.image old) :
    (applyAll edits' new).1 = (applyAll edits old).1 ∧
      View.unplaced.image (applyAll edits' new).2 = View.unplaced.image (applyAll edits old).2 := by
  induction edits generalizing edits' old new with
  | nil =>
    cases edits' with
    | nil => exact ⟨rfl, same⟩
    | cons edit' rest' => contradiction
  | cons edit rest ih =>
    cases edits' with
    | nil => contradiction
    | cons edit' rest' =>
      obtain ⟨here, later⟩ := restates
      obtain ⟨answer, left⟩ := Image.apply_unplaced same here
      obtain ⟨answers, last⟩ := ih later left
      refine ⟨?_, last⟩
      simp only [applyAll, answer, answers]

-- Fixed values qualify, whatever the offsets among them are.
theorem SectionHeader.Patch.unplaced_apply (patch : SectionHeader.Patch) (offset : Option UInt64)
    {a b : SectionHeader} (same : b.unplaced = a.unplaced)
    (occupies : (patch.apply a).occupiesFile = a.occupiesFile) :
    ({ patch with offset }.apply b).unplaced = (patch.apply a).unplaced := by
  obtain ⟨outline, size, link, info⟩ := unplaced_eq_iff.mp same
  obtain ⟨name, type, flags, addr, addralign, entsize⟩ := outline_eq_iff.mp outline
  have assigned : ({ patch with offset }.apply b).outline = (patch.apply a).outline := by
    simp only [outline_eq_iff, apply, name, type, flags, addr, addralign, entsize, and_self]
  refine unplaced_eq_iff.mpr ⟨assigned, fun vacant => ?_, ?_, ?_⟩
  · rw [occupiesFile_of_outline assigned, occupies, ← occupiesFile_of_unplaced same] at vacant
    exact congrArg patch.size.getD (size vacant)
  · exact congrArg patch.link.getD link
  · exact congrArg patch.info.getD info

theorem FileHeader.Patch.unplaced_apply (patch : FileHeader.Patch) (sectionTableOffset : Option UInt64)
    {a b : FileHeader} (same : b.unplaced = a.unplaced) :
    ({ patch with sectionTableOffset }.apply b).unplaced = (patch.apply a).unplaced := by
  simp only [FileHeader.unplaced, FileHeader.mk.injEq] at same
  simp only [FileHeader.unplaced, apply, same]

namespace Run

/-- The second run makes the changes of the first one with other values for what the image computes anew. -/
def Restates (first second : Run) : Prop :=
  first.config = second.config ∧
    Edit.RestateAll first.edits second.edits (Image.ofConfig first.config) (Image.ofConfig second.config)

/-- Runs that differ only in values that the image computes anew answer the same, finalizing in the end
does, and the file is the same. -/
theorem recomputed {first second : Run} (restates : first.Restates second) :
    second.answers = first.answers ∧
      second.image.finalize.1 = first.image.finalize.1 ∧
      ∀ reserves, second.image.finalize.2.serialize reserves = first.image.finalize.2.serialize reserves := by
  obtain ⟨config, restates⟩ := restates
  obtain ⟨answers, same⟩ := Edit.applyAll_unplaced restates (by rw [config])
  obtain ⟨answer, left⟩ := View.unplaced.finalize _ _ same
  refine ⟨answers, answer, ?_⟩
  have wellFormed (run : Run) : run.image.finalize.2.WellFormed := by
    rw [← image_finalize]
    exact wellFormed _
  exact Image.serialize_of_unplaced (wellFormed first) (wellFormed second) left

/-- Nothing is said about what the image computes anew. -/
def terse : Run where
  edits := [
    .addSection ".text" { type := .progBits, addralign := 16 } [0x90, 0xc3],
    .addSection ".bss" { type := .noBits, size := 64, addralign := 32 } [],
    .addSymbol "main" { info := 0x12, definedIn := .index 3 },
    .finalize,
    .editHeader (FileHeader.Patch.apply { entry := some 0x401000 }),
    .editSection ".text" (SectionHeader.Patch.apply { addr := some 0x401000 })]

/-- All of it is given, and none of it is right. -/
def verbose : Run where
  edits := [
    .addSection ".text" { type := .progBits, addralign := 16, name := 99, offset := 7, size := 1000 }
      [0x90, 0xc3],
    .addSection ".bss" { type := .noBits, size := 64, addralign := 32, name := 98, offset := 8 } [1, 2, 3],
    .addSymbol "main" { info := 0x12, definedIn := .index 3, name := 97 },
    .finalize,
    .editHeader (FileHeader.Patch.apply { entry := some 0x401000, sectionTableOffset := some 9 }),
    .editSection ".text" (SectionHeader.Patch.apply { addr := some 0x401000, offset := some 10 })]

theorem terse_restates : terse.Restates verbose := by
  refine ⟨rfl, .addSection _ _ _ _ _ rfl fun _ => rfl, .addSection _ _ _ _ _ rfl nofun,
    .addSymbol _ _ _ nofun, .finalize, .editHeader _ _ ?_, .editSection _ _ _ ?_, trivial⟩
  · exact FileHeader.Patch.unplaced_apply { entry := some 0x401000 } (some 9)
  · intro a b _ _ same
    exact ⟨rfl, SectionHeader.Patch.unplaced_apply { addr := some 0x401000 } (some 10) same rfl⟩

theorem terse_recomputed : terse.Restates verbose ∧ terse.image.finalize.1 = .ok () ∧
    ∀ reserves, verbose.image.finalize.2.serialize reserves = terse.image.finalize.2.serialize reserves :=
  ⟨terse_restates, by decide +kernel, (recomputed terse_restates).2.2⟩

end Run

end Elf64
