import Elf64.Proofs.Records

/-! Names and links in section tables.

The name index and the sections agree (`SectionTable.WellFormed.indexed`), so that the sections have
different names. Rewriting headers does not touch names, contents or links: `Alike` relates tables
that differ at most in the fields that finalizing stores. Applying links makes the table `Resolved`,
and a resolved table is one that applying the links leaves as it is. -/

set_option autoImplicit false

namespace Elf64

/-- A header without the fields that finalizing stores. -/
def SectionHeader.outline (header : SectionHeader) : SectionHeader :=
  { header with offset := 0, size := 0, link := 0, info := 0 }

def Section.outline (entry : Section) : Section := { entry with header := entry.header.outline }

namespace SectionTable

def outline (table : SectionTable) : List Section := table.added.toList.map Section.outline

/-- What the sections were added with. -/
def listing (table : SectionTable) : List (String × Bytes) :=
  table.added.toList.map fun entry => (entry.name, entry.contents)

structure WellFormed (table : SectionTable) : Prop where
  indexed : ∀ name i, table.indexOf? name = some i ↔ table.nameOf? i = some name
  linked : ∀ link ∈ table.links, (table.nameOf? link.1).isSome
  /-- No section has two links. -/
  sources : (table.links.map Prod.fst).Nodup

/-- The tables differ at most in what finalizing stores. -/
structure Alike (old new : SectionTable) : Prop where
  outline : new.outline = old.outline
  index : new.index = old.index
  links : new.links = old.links

variable {table old new : SectionTable} {name : String} {i : Nat} {f : SectionHeader → SectionHeader}

theorem Alike.refl (table : SectionTable) : table.Alike table := ⟨rfl, rfl, rfl⟩

theorem Alike.trans {next : SectionTable} (first : old.Alike new) (second : new.Alike next) :
    old.Alike next :=
  ⟨second.outline.trans first.outline, second.index.trans first.index, second.links.trans first.links⟩

theorem Alike.symm (alike : old.Alike new) : new.Alike old :=
  ⟨alike.outline.symm, alike.index.symm, alike.links.symm⟩

theorem Alike.indexOf? (alike : old.Alike new) (name : String) :
    new.indexOf? name = old.indexOf? name := by
  simp only [SectionTable.indexOf?, alike.index]

theorem nameOf?_succ (table : SectionTable) (i : Nat) :
    table.nameOf? (i + 1) = table.outline[i]?.map Section.name := by
  simp [nameOf?, outline, Function.comp_def, Section.outline]

theorem Alike.nameOf? (alike : old.Alike new) (i : Nat) : new.nameOf? i = old.nameOf? i := by
  cases i with
  | zero => rfl
  | succ i => rw [nameOf?_succ, nameOf?_succ, alike.outline]

theorem Alike.listing (alike : old.Alike new) : new.listing = old.listing := by
  have view (table : SectionTable) :
      table.listing = table.outline.map fun entry => (entry.name, entry.contents) := by
    simp [SectionTable.listing, SectionTable.outline, Function.comp_def, Section.outline]
  rw [view, view, alike.outline]

theorem Alike.size (alike : old.Alike new) : new.size = old.size := by
  simpa [SectionTable.outline, SectionTable.size] using congrArg List.length alike.outline

theorem Alike.wellFormed (alike : old.Alike new) (wellFormed : old.WellFormed) : new.WellFormed where
  indexed := by
    intro name i
    rw [alike.indexOf?, alike.nameOf?]
    exact wellFormed.indexed name i
  linked := by
    intro link member
    rw [alike.nameOf?]
    exact wellFormed.linked link (alike.links ▸ member)
  sources := by rw [alike.links]; exact wellFormed.sources

theorem find?_of_indexOf? (found : table.indexOf? name = some i) : table.find? name = table.get? i := by
  rw [find?, found]
  rfl

theorem WellFormed.ne_zero (wellFormed : table.WellFormed) (found : table.indexOf? name = some i) :
    i ≠ 0 := by
  rintro rfl
  exact nomatch (wellFormed.indexed name 0).mp found

theorem WellFormed.index_eq_iff (wellFormed : table.WellFormed) (found : table.indexOf? name = some i)
    {other : String} {j : Nat} (named : table.nameOf? j = some other) : j = i ↔ other = name := by
  have here := (wellFormed.indexed name i).mp found
  constructor
  · rintro rfl
    exact Option.some.inj (named.symm.trans here)
  · rintro rfl
    have there := (wellFormed.indexed other j).mpr named
    exact Option.some.inj (there.symm.trans found)

theorem get?_eq (table : SectionTable) (i : Nat) : table.get? i = table.headers[i]? := by
  cases i <;> simp [get?, headers]

-- Every header of a table that passes its checks passes them.
theorem validate_eq_ok_iff :
    table.validate = .ok () ↔ ∀ header ∈ table.headers, header.validate = .ok () := by
  unfold validate
  generalize table.headers = headers
  induction headers with
  | nil => simp [pure, Except.pure]
  | cons first rest ih =>
    cases valid : first.validate with
    | error e => simp [valid, bind, Except.bind]
    | ok done => simpa [valid, bind, Except.bind] using ih

theorem validate_eq_ok_iff_get? : table.validate = .ok () ↔
    ∀ i header, table.get? i = some header → header.validate = .ok () := by
  rw [validate_eq_ok_iff]
  simp only [get?_eq, List.mem_iff_getElem?]
  exact ⟨fun all i header here => all header ⟨i, here⟩, fun all header ⟨i, here⟩ => all i header here⟩

theorem type_check_of_validate (valid : table.validate = .ok ()) {header : SectionHeader}
    (here : table.get? i = some header) : header.type.check = .ok () := by
  rw [get?_eq] at here
  have checked := validate_eq_ok_iff.mp valid header (List.mem_of_getElem? here)
  simp only [SectionHeader.validate, bind, Except.bind] at checked
  split at checked
  · contradiction
  · assumption

/-! ## Adding sections -/

theorem wellFormed_empty : ({} : SectionTable).WellFormed where
  indexed := by
    intro name i
    cases i <;> simp [indexOf?, nameOf?]
  linked := by simp
  sources := List.nodup_nil

theorem indexOf?_push (table : SectionTable) (entry : Section) (name : String) :
    (table.push entry).indexOf? name =
      if entry.name = name then some table.size else table.indexOf? name := by
  simp [push, indexOf?, Std.TreeMap.getElem?_insert]

theorem nameOf?_push (table : SectionTable) (entry : Section) (i : Nat) :
    (table.push entry).nameOf? i = if i = table.size then some entry.name else table.nameOf? i := by
  cases i with
  | zero => simp [nameOf?, size]
  | succ i => simp only [push, nameOf?, Array.getElem?_push, size, Nat.succ.injEq]; split <;> simp

theorem get?_push (table : SectionTable) (entry : Section) (i : Nat) :
    (table.push entry).get? i = if i = table.size then some entry.header else table.get? i := by
  cases i with
  | zero => simp [get?, size]
  | succ i => simp only [push, get?, Array.getElem?_push, size, Nat.succ.injEq]; split <;> simp

theorem lt_size_of_nameOf? (named : table.nameOf? i = some name) : i < table.size := by
  cases i with
  | zero => contradiction
  | succ i =>
    obtain ⟨entry, found, -⟩ := Option.map_eq_some_iff.mp named
    obtain ⟨bound, -⟩ := Array.getElem?_eq_some_iff.mp found
    exact Nat.succ_lt_succ bound

theorem get?_of_lt_size (bound : i < table.size) : ∃ header, table.get? i = some header := by
  rw [get?_eq]
  have inside : i < table.headers.length := by simpa [headers, size] using bound
  exact ⟨_, List.getElem?_eq_getElem inside⟩

theorem get?_of_nameOf? (named : table.nameOf? i = some name) : ∃ header, table.get? i = some header :=
  get?_of_lt_size (lt_size_of_nameOf? named)

-- A name that is not in the index belongs to no section.
theorem WellFormed.push (wellFormed : table.WellFormed) {entry : Section}
    (fresh : table.indexOf? entry.name = none) : (table.push entry).WellFormed where
  indexed := by
    intro name i
    rw [indexOf?_push, nameOf?_push]
    split
    · next same =>
      subst same
      split
      · next last => simp [last]
      · next old =>
        rw [← wellFormed.indexed, fresh]
        simp [Ne.symm old]
    · next other =>
      rw [wellFormed.indexed]
      split
      · next last =>
        -- There was no section at the new index before.
        subst last
        constructor
        · intro named
          exact absurd (lt_size_of_nameOf? named) (Nat.lt_irrefl _)
        · intro same
          exact absurd (Option.some.inj same) other
      · exact Iff.rfl
  linked := by
    intro link member
    rw [nameOf?_push]
    split
    · rfl
    · exact wellFormed.linked link member
  sources := wellFormed.sources

theorem check_eq_ok {header : SectionHeader} (checked : table.check name header = .ok ()) :
    table.indexOf? name = none ∧ header.validate = .ok () := by
  unfold check at checked
  split at checked
  · contradiction
  · next unused =>
    rw [Std.TreeMap.contains_eq_isSome_getElem?] at unused
    exact ⟨Option.not_isSome_iff_eq_none.mp unused, checked⟩

/-! ## Rewriting headers -/

@[simp] theorem index_modify : (table.modify i f).index = table.index := by
  cases i <;> rfl

@[simp] theorem links_modify : (table.modify i f).links = table.links := by
  cases i <;> rfl

theorem get?_modify_self : (table.modify i f).get? i =
    if i = 0 then some .null else (table.get? i).map f := by
  cases i with
  | zero => rfl
  | succ i => simp [modify, get?, Array.getElem?_modify, Function.comp_def]

theorem get?_modify_of_ne {j : Nat} (ne : i ≠ j) : (table.modify i f).get? j = table.get? j := by
  cases i with
  | zero => rfl
  | succ i =>
    cases j with
    | zero => rfl
    | succ j =>
      have : i ≠ j := fun same => ne (congrArg Nat.succ same)
      simp [modify, get?, Array.getElem?_modify, this]

-- A view of headers that a change leaves alone is the same at every index.
theorem map_get?_modify {α : Type} {view : SectionHeader → α}
    (keeps : ∀ header, view (f header) = view header) (j : Nat) :
    ((table.modify i f).get? j).map view = (table.get? j).map view := by
  by_cases same : i = j
  · subst same
    rw [get?_modify_self]
    split
    · next zero => rw [zero]; rfl
    · simp [Function.comp_def, keeps]
  · rw [get?_modify_of_ne same]

theorem map_get?_of_map {α : Type} {view : SectionHeader → α}
    (same : new.added.toList.map (fun entry => view entry.header) =
      old.added.toList.map fun entry => view entry.header) (j : Nat) :
    (new.get? j).map view = (old.get? j).map view := by
  cases j with
  | zero => rfl
  | succ j => simpa [get?, Function.comp_def] using congrArg (fun views => views[j]?) same

theorem Alike.map_get? (alike : old.Alike new) (i : Nat) :
    (new.get? i).map SectionHeader.outline = (old.get? i).map SectionHeader.outline := by
  apply map_get?_of_map
  simpa [SectionTable.outline, Function.comp_def, Section.outline] using
    congrArg (List.map Section.header) alike.outline

theorem nameOf?_modify (j : Nat) : (table.modify i f).nameOf? j = table.nameOf? j := by
  cases i with
  | zero => rfl
  | succ i =>
    cases j with
    | zero => rfl
    | succ j =>
      simp only [modify, nameOf?, Array.getElem?_modify]
      split <;> simp [Function.comp_def]

theorem wellFormed_modify (wellFormed : table.WellFormed) : (table.modify i f).WellFormed where
  indexed := by
    intro name j
    rw [nameOf?_modify, indexOf?, index_modify]
    exact wellFormed.indexed name j
  linked := by
    intro link member
    rw [nameOf?_modify]
    exact wellFormed.linked link (links_modify ▸ member)
  sources := by rw [links_modify]; exact wellFormed.sources

theorem map_modify {α β : Type} {view : α → β} {change : α → α} {items : List α} {i : Nat}
    (keeps : ∀ item, items[i]? = some item → view (change item) = view item) :
    (items.modify i change).map view = items.map view := by
  induction items generalizing i with
  | nil => simp
  | cons first rest ih =>
    cases i with
    | zero => simp [keeps first rfl]
    | succ i => simp [ih keeps]

-- A view of sections that a change of the header leaves alone is the same after it.
theorem map_added_modify {α : Type} {view : Section → α} (keeps : ∀ entry,
      table.get? i = some entry.header → view { entry with header := f entry.header } = view entry) :
    (table.modify i f).added.toList.map view = table.added.toList.map view := by
  cases i with
  | zero => rfl
  | succ i =>
    simp only [modify, Array.toList_modify]
    refine map_modify fun entry here => keeps entry ?_
    rw [Array.getElem?_toList] at here
    simp [get?, here]

theorem listing_modify : (table.modify i f).listing = table.listing :=
  map_added_modify fun _ _ => rfl

theorem modify_alike (keeps : ∀ header, (f header).outline = header.outline) :
    table.Alike (table.modify i f) where
  outline := map_added_modify fun entry _ => by simp [Section.outline, keeps]
  index := index_modify
  links := links_modify

theorem modify_eq_self (fixed : ∀ header, table.get? i = some header → f header = header) :
    table.modify i f = table := by
  cases i with
  | zero => rfl
  | succ i =>
    have same : (table.added.modify i fun entry => { entry with header := f entry.header }) =
        table.added := by
      apply Array.ext_getElem?
      intro j
      rw [Array.getElem?_modify]
      split
      · next here =>
        subst here
        cases found : table.added[i]? with
        | none => rfl
        | some entry =>
          have kept := fixed entry.header (by simp [get?, found])
          simp [kept]
      · rfl
    simp [modify, same]

/-! ## Links -/

/-- The header at one end holds the index of the other. -/
def Links (table : SectionTable) (link : Nat × String) : Prop :=
  ∃ target, table.indexOf? link.2 = some target ∧
    ∀ header, table.get? link.1 = some header → header.link = .ofNat target

def Resolved (table : SectionTable) : Prop := ∀ link ∈ table.links, table.Links link

-- Linking two sections drops an older link of the first.
theorem link_of_indexOf? (found : table.indexOf? name = some i) (target : String) :
    table.link name target =
      (.ok (), { table with links := table.links.filter (·.1 ≠ i) ++ [(i, target)] }) := by
  simp [link, require, found]

theorem link_of_indexOf?_eq_none (missing : table.indexOf? name = none) (target : String) :
    table.link name target = (.error (.unknownSection name), table) := by
  simp [link, require, missing]

theorem WellFormed.link (wellFormed : table.WellFormed) (found : table.indexOf? name = some i)
    (target : String) : WellFormed { table with
      links := table.links.filter (·.1 ≠ i) ++ [(i, target)] } where
  indexed := wellFormed.indexed
  linked := by
    intro link member
    rcases List.mem_append.mp member with old | new
    · exact wellFormed.linked link (List.mem_filter.mp old).1
    · obtain rfl := List.mem_singleton.mp new
      exact Option.isSome_of_eq_some ((wellFormed.indexed name i).mp found)
  sources := by
    -- The links that are kept have other sources than the new one.
    rw [List.map_append, List.nodup_append]
    refine ⟨?_, by simp, ?_⟩
    · exact wellFormed.sources.sublist (List.filter_sublist.map Prod.fst)
    · intro source member other last
      obtain rfl : other = i := by simpa using last
      obtain ⟨link, kept, rfl⟩ := List.mem_map.mp member
      exact of_decide_eq_true (List.mem_filter.mp kept).2

theorem applyLinks_alike (links : List (Nat × String)) (table : SectionTable) :
    table.Alike (applyLinks links table).2 := by
  induction links generalizing table with
  | nil => exact .refl table
  | cons link rest ih =>
    simp only [applyLinks]
    split
    · exact .refl table
    · refine Alike.trans (modify_alike ?_) (ih _)
      intro header
      rfl

theorem get?_applyLinks {links : List (Nat × String)} (untouched : i ∉ links.map Prod.fst) :
    (applyLinks links table).2.get? i = table.get? i := by
  induction links generalizing table with
  | nil => rfl
  | cons link rest ih =>
    simp only [List.map_cons, List.mem_cons, not_or] at untouched
    simp only [applyLinks]
    split
    · rfl
    · rw [ih untouched.2, get?_modify_of_ne (Ne.symm untouched.1)]

-- With one link for each section, later links do not undo earlier ones.
theorem links_of_applyLinks {links : List (Nat × String)} {next : SectionTable}
    (sources : (links.map Prod.fst).Nodup) (positive : ∀ link ∈ links, link.1 ≠ 0)
    (applied : applyLinks links table = (.ok (), next)) : ∀ link ∈ links, next.Links link := by
  induction links generalizing table with
  | nil => simp
  | cons link rest ih =>
    obtain ⟨fresh, sources⟩ := List.nodup_cons.mp sources
    have alike : table.Alike next := by simpa [applied] using applyLinks_alike (link :: rest) table
    simp only [applyLinks] at applied
    split at applied
    · simp at applied
    · next target found =>
      intro other member
      rcases List.mem_cons.mp member with rfl | later
      · -- The later links have other sources, so that they leave this header alone.
        refine ⟨target, (alike.indexOf? _).trans found, fun header here => ?_⟩
        have kept : next.get? other.1 = _ := applied ▸ get?_applyLinks fresh
        rw [here, get?_modify_self, if_neg (positive other member)] at kept
        obtain ⟨before, -, rfl⟩ := Option.map_eq_some_iff.mp kept.symm
        rfl
      · exact ih sources (fun link later => positive link (List.mem_cons_of_mem _ later)) applied other later

theorem WellFormed.positive (wellFormed : table.WellFormed) : ∀ link ∈ table.links, link.1 ≠ 0 := by
  intro link member zero
  have named := wellFormed.linked link member
  rw [zero] at named
  contradiction

theorem WellFormed.resolved (wellFormed : table.WellFormed)
    (done : table.resolveLinks = (.ok (), new)) : new.Resolved := by
  unfold resolveLinks at done
  have alike : table.Alike new := by simpa [done] using applyLinks_alike table.links table
  intro link member
  exact links_of_applyLinks wellFormed.sources wellFormed.positive done link (alike.links ▸ member)

theorem applyLinks_of_links {links : List (Nat × String)} (resolved : ∀ link ∈ links, table.Links link) :
    applyLinks links table = (.ok (), table) := by
  induction links with
  | nil => rfl
  | cons link rest ih =>
    obtain ⟨target, found, fixed⟩ := resolved link List.mem_cons_self
    simp only [applyLinks, found]
    rw [modify_eq_self, ih fun other later => resolved other (List.mem_cons_of_mem _ later)]
    intro header here
    rw [← fixed header here]

/-! ## Writing the table -/

theorem encode_records (order : ByteOrder) (table : SectionTable) :
    table.records.flatMap (Record.encode order) = table.encode order := by
  rw [records, encode, List.flatMap_map]
  rfl

theorem records_fit (table : SectionTable) : ∀ record ∈ table.records, record.Fits := by
  intro record member
  obtain ⟨header, -, rfl⟩ := List.mem_map.mp member
  exact header.record_fits

end SectionTable

end Elf64
