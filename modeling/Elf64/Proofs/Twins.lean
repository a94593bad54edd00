import Mathlib.Data.List.Forall2
import Elf64.Proofs.Success

/-! What the result of finalizing depends on.

Of a section header, finalizing stores some fields anew and leaves the part that was given alone
(`SectionTable.given`). Images are twins if they agree on these parts and on everything that is no
header. Finalizing leaves a twin of the image that it starts from, also when it fails
(`Image.finalize_twins`), and settled twins are equal (`Image.Twins.eq_of_settled`), so that twins are
as good as one image to a program that goes on to finalize them (`Image.Twins.finalize`). -/

set_option autoImplicit false

namespace Elf64

theorem SectionHeader.outline_eq_iff {a b : SectionHeader} : a.outline = b.outline ↔
    a.name = b.name ∧ a.type = b.type ∧ a.flags = b.flags ∧ a.addr = b.addr ∧
      a.addralign = b.addralign ∧ a.entsize = b.entsize := by
  simp [outline]

theorem SectionHeader.occupiesFile_of_outline {a b : SectionHeader} (same : a.outline = b.outline) :
    a.occupiesFile = b.occupiesFile :=
  congrArg SectionType.occupiesFile (outline_eq_iff.mp same).2.1

theorem SectionHeader.eq_of_outline {a b : SectionHeader} (outline : a.outline = b.outline)
    (offset : a.offset = b.offset) (size : a.size = b.size) (link : a.link = b.link)
    (info : a.info = b.info) : a = b := by
  obtain ⟨name, type, flags, addr, addralign, entsize⟩ := outline_eq_iff.mp outline
  cases a
  cases b
  simp only [mk.injEq]
  exact ⟨name, type, flags, addr, offset, size, link, info, addralign, entsize⟩

namespace SectionTable

variable {table old new : SectionTable} {i : Nat}

/-- The part of the header at an index that finalizing leaves alone: not the offset, nor the size of
what occupies the file, nor the link of a section that is linked by name, nor the info of the symbol
table. -/
def given (table : SectionTable) (i : Nat) (header : SectionHeader) : SectionHeader :=
  { header with
    offset := 0
    size := if header.occupiesFile then 0 else header.size
    link := if i ∈ table.links.map Prod.fst then 0 else header.link
    info := if table.indexOf? symtabName = some i then 0 else header.info }

theorem outline_given (table : SectionTable) (i : Nat) (header : SectionHeader) :
    (table.given i header).outline = header.outline := rfl

theorem given_eq_iff {a b : SectionHeader} : table.given i a = table.given i b ↔
    a.outline = b.outline ∧ (¬ a.occupiesFile → a.size = b.size) ∧
      (i ∉ table.links.map Prod.fst → a.link = b.link) ∧
      (table.indexOf? symtabName ≠ some i → a.info = b.info) := by
  constructor
  · intro same
    have outline : a.outline = b.outline := by rw [← table.outline_given i, same, outline_given]
    have occupies := SectionHeader.occupiesFile_of_outline outline
    have size := congrArg SectionHeader.size same
    have link := congrArg SectionHeader.link same
    have info := congrArg SectionHeader.info same
    simp only [given, ← occupies] at size link info
    refine ⟨outline, fun vacant => ?_, fun unlinked => ?_, fun other => ?_⟩
    · rwa [if_neg vacant, if_neg vacant] at size
    · rwa [if_neg unlinked, if_neg unlinked] at link
    · rwa [if_neg other, if_neg other] at info
  · rintro ⟨outline, size, link, info⟩
    have occupies := SectionHeader.occupiesFile_of_outline outline
    apply SectionHeader.eq_of_outline
    · exact outline
    · rfl
    · simp only [given, ← occupies]
      split
      · rfl
      · next vacant => exact size vacant
    · simp only [given]
      split
      · rfl
      · next unlinked => exact link unlinked
    · simp only [given]
      split
      · rfl
      · next other => exact info other

theorem Alike.given (alike : old.Alike new) : new.given = old.given := by
  funext i header
  simp only [SectionTable.given, alike.links, alike.indexOf?]

/-! ## Links -/

theorem map_get?_applyLinks {α : Type} {view : SectionHeader → α}
    (blind : ∀ header link, view { header with link } = view header) (links : List (Nat × String))
    (table : SectionTable) (i : Nat) :
    ((applyLinks links table).2.get? i).map view = (table.get? i).map view := by
  induction links generalizing table with
  | nil => rfl
  | cons link rest ih =>
    simp only [applyLinks]
    split
    · rfl
    · rw [ih, map_get?_modify]
      intro header
      exact blind header _

-- Both hold the index of the one target.
theorem Resolved.link_eq (first : old.Resolved) (second : new.Resolved) (index : new.index = old.index)
    (links : new.links = old.links) (linked : i ∈ old.links.map Prod.fst) {header other : SectionHeader}
    (here : new.get? i = some header) (there : old.get? i = some other) : header.link = other.link := by
  obtain ⟨source, member, rfl⟩ := List.mem_map.mp linked
  obtain ⟨target, found, stored⟩ := first source member
  obtain ⟨target', found', stored'⟩ := second source (links ▸ member)
  rw [indexOf?, index] at found'
  obtain rfl := Option.some.inj (found'.symm.trans found)
  rw [stored other there, stored' header here]

/-- The tables differ at most in what finalizing stores. Whether that is a field depends on the index. -/
structure Twins (old new : SectionTable) : Prop where
  alike : old.Alike new
  given : ∀ i, (new.get? i).map (old.given i) = (old.get? i).map (old.given i)

theorem Twins.refl (table : SectionTable) : table.Twins table := ⟨.refl table, fun _ => rfl⟩

theorem Twins.symm (twins : old.Twins new) : new.Twins old where
  alike := twins.alike.symm
  given i := by
    rw [twins.alike.given]
    exact (twins.given i).symm

theorem Twins.trans {next : SectionTable} (first : old.Twins new) (second : new.Twins next) :
    old.Twins next where
  alike := first.alike.trans second.alike
  given i := by
    rw [← first.alike.given, second.given, first.alike.given, first.given]

theorem resolveLinks_twins (table : SectionTable) : table.Twins table.resolveLinks.2 where
  alike := applyLinks_alike table.links table
  given i := by
    by_cases linked : i ∈ table.links.map Prod.fst
    · apply map_get?_applyLinks
      intro header link
      simp only [SectionTable.given, if_pos linked]
      rfl
    · rw [resolveLinks, get?_applyLinks linked]

theorem modify_twins {f : SectionHeader → SectionHeader}
    (keeps : ∀ header, (f header).outline = header.outline)
    (given : ∀ header, table.given i (f header) = table.given i header) :
    table.Twins (table.modify i f) where
  alike := modify_alike keeps
  given j := by
    by_cases same : i = j
    · subst same
      exact map_get?_modify given i
    · rw [get?_modify_of_ne same]

-- A section is its header, its name and its contents.
theorem eq_of_get? (listing : new.listing = old.listing) (headers : ∀ i, new.get? i = old.get? i)
    (index : new.index = old.index) (links : new.links = old.links) : new = old := by
  have added : new.added = old.added := by
    apply Array.ext_getElem?
    intro i
    have header : new.added[i]?.map Section.header = old.added[i]?.map Section.header := headers (i + 1)
    have listed := congrArg (fun entries => entries[i]?) listing
    simp only [SectionTable.listing, List.getElem?_map, Array.getElem?_toList] at listed
    cases here : new.added[i]? with
    | none =>
      rw [here] at header
      exact (Option.map_eq_none_iff.mp header.symm).symm
    | some entry =>
      cases there : old.added[i]? with
      | none => simp [here, there] at header
      | some other =>
        rw [here, there] at header listed
        obtain ⟨name, contents⟩ := Prod.mk.inj (Option.some.inj listed)
        obtain rfl : entry = other := by
          cases entry
          cases other
          exact Section.mk.injEq .. ▸ ⟨name, Option.some.inj header, contents⟩
        rfl
  cases old
  cases new
  simp only [mk.injEq]
  exact ⟨added, index, links⟩

end SectionTable

/-! ## Sections in their places -/

/-- What placing decides about where a section lies. -/
def SectionHeader.span (header : SectionHeader) : UInt64 × UInt64 :=
  (header.offset, if header.occupiesFile then header.size else 0)

theorem SectionHeader.span_of_place {header : SectionHeader} {size cursor next : Nat}
    (fixed : header.place size cursor = (.ok next, header)) :
    header.span = (.ofNat (alignUp cursor header.addralign.toNat),
      if header.occupiesFile then .ofNat size else 0) := by
  obtain ⟨-, rest⟩ := place_eq_ok_iff.mp fixed
  dsimp only at rest
  split at rest
  · next occupies =>
    obtain ⟨-, -, same⟩ := rest
    rw [span, if_pos occupies, if_pos occupies, congrArg offset same, congrArg SectionHeader.size same]
  · next vacant =>
    obtain ⟨-, same⟩ := rest
    rw [span, if_neg vacant, if_neg vacant, congrArg offset same]

theorem forall₂_of_map {α β : Type} {f : α → β} {related : α → α → Prop}
    (finer : ∀ a b, f b = f a → related a b) {old new : List α} (same : new.map f = old.map f) :
    List.Forall₂ related old new := by
  induction old generalizing new with
  | nil =>
    obtain rfl := List.map_eq_nil_iff.mp same
    exact .nil
  | cons first rest ih =>
    obtain ⟨other, others, rfl, here, later⟩ := List.map_eq_cons_iff.mp same
    exact .cons (finer first other here) (ih later)

/-- Placing reads the same from both sections. -/
structure Section.PlacedAlike (sizeOf : Section → Nat) (old new : Section) : Prop where
  addralign : new.header.addralign = old.header.addralign
  occupiesFile : new.header.occupiesFile = old.header.occupiesFile
  size : old.header.occupiesFile → sizeOf new = sizeOf old

theorem Section.PlacedAlike.next_eq {sizeOf : Section → Nat} {old new : Section}
    (alike : old.PlacedAlike sizeOf new) {cursor next next' : Nat}
    (fixed : old.header.place (sizeOf old) cursor = (.ok next, old.header))
    (fixed' : new.header.place (sizeOf new) cursor = (.ok next', new.header)) : next' = next := by
  obtain ⟨-, moved⟩ := SectionHeader.place_eq_ok_iff.mp fixed
  obtain ⟨-, moved'⟩ := SectionHeader.place_eq_ok_iff.mp fixed'
  dsimp only at moved moved'
  split at moved
  · next occupies =>
    rw [if_pos (alike.occupiesFile.trans occupies)] at moved'
    rw [moved'.2.1, moved.2.1, alike.addralign, alike.size occupies]
  · next vacant =>
    rw [if_neg (alike.occupiesFile ▸ vacant)] at moved'
    rw [moved'.1, moved.1]

-- What placing reads is the same for both, so that they lie in the same places.
theorem Placed.unique {sizeOf : Section → Nat} {cursor last last' : Nat} {old new : List Section}
    (first : Placed sizeOf last cursor old) (second : Placed sizeOf last' cursor new)
    (alike : List.Forall₂ (Section.PlacedAlike sizeOf) old new) :
    last' = last ∧ new.map (fun entry => entry.header.span) = old.map fun entry => entry.header.span := by
  induction first generalizing new with
  | nil =>
    cases alike
    cases second
    exact ⟨rfl, rfl⟩
  | @cons cursor next entry rest fixed behind ih =>
    obtain _ | ⟨here, later⟩ := alike
    obtain _ | ⟨fixed', behind'⟩ := second
    obtain rfl := here.next_eq fixed fixed'
    obtain ⟨same, spans⟩ := ih behind' later
    refine ⟨same, ?_⟩
    rw [List.map_cons, List.map_cons, spans, SectionHeader.span_of_place fixed,
      SectionHeader.span_of_place fixed', here.addralign, here.occupiesFile]
    congr 2
    split
    · next occupies => rw [here.size occupies]
    · rfl

namespace Image

/-- The images differ at most in what finalizing stores. -/
structure Twins (old new : Image) : Prop where
  header : new.header.outline = old.header.outline
  sections : old.sections.Twins new.sections
  strings : new.strings = old.strings
  symbols : new.symbols = old.symbols

variable {image old new : Image} {size size' : Nat}

theorem Twins.alike (twins : old.Twins new) : old.Alike new :=
  ⟨twins.header, twins.sections.alike, twins.strings, twins.symbols⟩

theorem Twins.refl (image : Image) : image.Twins image := ⟨rfl, .refl _, rfl, rfl⟩

theorem Twins.symm (twins : old.Twins new) : new.Twins old :=
  ⟨twins.header.symm, twins.sections.symm, twins.strings.symm, twins.symbols.symm⟩

theorem Twins.trans {next : Image} (first : old.Twins new) (second : new.Twins next) :
    old.Twins next :=
  ⟨second.header.trans first.header, first.sections.trans second.sections,
    second.strings.trans first.strings, second.symbols.trans first.symbols⟩

/-! ## Finalizing leaves a twin -/

theorem reopen_twins (image : Image) : image.Twins image.reopen := ⟨rfl, .refl _, rfl, rfl⟩

theorem resolveLinks_twins (image : Image) : image.Twins image.resolveLinks.2 :=
  ⟨rfl, image.sections.resolveLinks_twins, rfl, rfl⟩

theorem storeFirstGlobal_twins (image : Image) : image.Twins image.storeFirstGlobal.2 := by
  refine Outcome.andThen_keeps (.refl image) fun index state required here => ?_
  refine Outcome.andThen_keeps here fun _ state' checked here => ?_
  obtain ⟨found, rfl⟩ := Prod.mk.inj required
  obtain ⟨-, rfl⟩ := Prod.mk.inj checked
  -- Where the info is stored, the table does not count it as given.
  have stored : image.sections.Twins (image.sections.modify index fun header =>
      { header with info := .ofNat image.symbols.firstGlobal }) := by
    refine SectionTable.modify_twins (fun header => rfl) fun header => ?_
    simp only [SectionTable.given, if_pos (SectionTable.require_eq_ok_iff.mp found)]
    rfl
  exact ⟨rfl, stored, rfl, rfl⟩

theorem layOut_twins (image : Image) : image.Twins image.layOut.2 := by
  have placed : image.sections.Twins { image.sections with
      added := (placeAll image.contentsSize #[] image.contentsStart image.sections.added.toList).2 } := by
    refine ⟨placeAll_alike _ _ image.sections, fun i => map_get?_placeAll ?_ _ _ image.sections i⟩
    intro header offset size vacant
    exact SectionTable.given_eq_iff.mpr ⟨rfl, vacant, fun _ => rfl, fun _ => rfl⟩
  refine Outcome.andThen_keeps ⟨rfl, placed, rfl, rfl⟩ fun size state _ here => ?_
  split <;> exact here

theorem close_twins (image : Image) (size : Nat) : image.Twins (image.close size).2 := by
  obtain ⟨header, finalSize, same, closed⟩ := image.close_keeps size
  rw [closed]
  exact ⟨same, .refl _, rfl, rfl⟩

-- The induction is over the stages, as for `finalize_alike`.
theorem finalize_twins (image : Image) : image.Twins image.finalize.2 := by
  refine Outcome.andThen_keeps image.reopen_twins fun _ state _ here => ?_
  refine Outcome.andThen_keeps (here.trans state.resolveLinks_twins) fun _ state _ here => ?_
  refine Outcome.andThen_keeps (here.trans state.storeFirstGlobal_twins) fun _ state _ here => ?_
  refine Outcome.andThen_keeps (here.trans state.layOut_twins) fun size state _ here => ?_
  exact here.trans (state.close_twins size)

/-! ## Settled twins -/

-- The fields that are not stored come from the outline, the others from the image.
theorem Settled.header_eq (settled : image.Settled size) {strtab : Nat}
    (atStrtab : image.sections.indexOf? strtabName = some strtab) :
    image.header = { image.header.outline with
      sectionTableOffset := .ofNat FileHeader.recordSize
      sectionCount := .ofNat image.sections.size
      nameTableIndex := .ofNat strtab } := by
  obtain ⟨index, found, closed⟩ := settled.closed
  obtain rfl := Option.some.inj (found.symm.trans atStrtab)
  obtain ⟨-, -, -, -, same⟩ := FileHeader.close_eq_ok_iff.mp closed
  rw [← settled.tableOffset]
  exact same

theorem Twins.header_eq (twins : old.Twins new) (first : old.Settled size) (second : new.Settled size') :
    new.header = old.header := by
  obtain ⟨strtab, atStrtab, -⟩ := first.closed
  have found := (twins.alike.sections.indexOf? strtabName).trans atStrtab
  rw [first.header_eq atStrtab, second.header_eq found, twins.header, twins.alike.sections.size]

theorem Twins.placed_eq (twins : old.Twins new) (first : old.Settled size) (second : new.Settled size') :
    size' = size ∧ new.sections.added.toList.map (fun entry => entry.header.span) =
      old.sections.added.toList.map fun entry => entry.header.span := by
  have placed := second.placed
  rw [twins.alike.contentsSize, twins.alike.contentsStart] at placed
  refine first.placed.unique placed (forall₂_of_map (fun a b same => ?_) twins.alike.sections.outline)
  have header : b.header.outline = a.header.outline := congrArg Section.header same
  have room : old.contentsSize b.outline = old.contentsSize a.outline := by rw [same]
  exact ⟨(SectionHeader.outline_eq_iff.mp header).2.2.2.2.1, SectionHeader.occupiesFile_of_outline header,
    fun _ => room⟩

theorem Twins.info_eq (twins : old.Twins new) (first : old.Settled size) (second : new.Settled size')
    {i : Nat} (symtab : old.sections.indexOf? symtabName = some i) {header other : SectionHeader}
    (here : new.sections.get? i = some header) (there : old.sections.get? i = some other) :
    header.info = other.info := by
  apply UInt32.toNat_inj.mp
  rw [first.info symtab there, second.info ((twins.alike.sections.indexOf? _).trans symtab) here,
    twins.symbols]

-- What the tables do not count as given, both images have stored.
theorem Twins.get?_eq (twins : old.Twins new) (first : old.Settled size) (second : new.Settled size')
    (i : Nat) : new.sections.get? i = old.sections.get? i := by
  have spans := SectionTable.map_get?_of_map (twins.placed_eq first second).2 i
  have given := twins.sections.given i
  cases here : new.sections.get? i with
  | none =>
    rw [here] at given
    exact (Option.map_eq_none_iff.mp given.symm).symm
  | some header =>
    cases there : old.sections.get? i with
    | none => simp [here, there] at given
    | some other =>
      rw [here, there] at spans given
      obtain ⟨outline, size, link, info⟩ := SectionTable.given_eq_iff.mp (Option.some.inj given)
      obtain ⟨offset, span⟩ := Prod.mk.inj (Option.some.inj spans)
      congr 1
      apply SectionHeader.eq_of_outline outline offset
      · rw [← SectionHeader.occupiesFile_of_outline outline] at span
        by_cases occupies : header.occupiesFile
        · rwa [if_pos occupies, if_pos occupies] at span
        · exact size occupies
      · by_cases linked : i ∈ old.sections.links.map Prod.fst
        · exact first.resolved.link_eq second.resolved twins.alike.sections.index twins.alike.sections.links
            linked here there
        · exact link linked
      · by_cases symtab : old.sections.indexOf? symtabName = some i
        · exact twins.info_eq first second symtab here there
        · exact info symtab

theorem Twins.eq_of_settled (twins : old.Twins new) (first : old.Settled size)
    (second : new.Settled size') : new = old := by
  have header := twins.header_eq first second
  have sections := SectionTable.eq_of_get? twins.alike.sections.listing (twins.get?_eq first second)
    twins.alike.sections.index twins.alike.sections.links
  have finalSize : new.finalSize = old.finalSize := by
    rw [first.finalSize, second.finalSize, (twins.placed_eq first second).1]
  cases old
  cases new
  simp only [mk.injEq]
  exact ⟨header, sections, twins.strings, twins.symbols, finalSize⟩

/-- Finalizing answers the same for twins, and makes them one image if it succeeds. -/
theorem Twins.finalize (twins : old.Twins new) (wellFormed : old.sections.WellFormed) :
    new.finalize.1 = old.finalize.1 ∧
      (old.finalize.1 = .ok () → new.finalize.2 = old.finalize.2) := by
  refine ⟨twins.alike.finalize_answer, fun done => ?_⟩
  have again := twins.alike.finalize_answer.trans done
  obtain ⟨size, first⟩ := settled_of_finalize wellFormed (Prod.ext done rfl)
  obtain ⟨size', second⟩ :=
    settled_of_finalize (twins.alike.sections.wellFormed wellFormed) (Prod.ext again rfl)
  have results := (old.finalize_twins.symm.trans twins).trans new.finalize_twins
  exact results.eq_of_settled first second

end Image

end Elf64
