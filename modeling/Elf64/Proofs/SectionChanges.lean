import Mathlib.Data.List.Induction
import Elf64.Proofs.Acceptance
import Elf64.Proofs.Links

/-! Section tables under any changes.

A table starts empty. Sections are added and linked, headers are rewritten, and links are resolved, in any
order and whether a change is refused or not. `SectionTable.Step` lists what one change can do, and
`SectionTable.made_induction` is the induction over all of them. The headers, the names, the index of the names
and the links stay in step (`SectionTable.consistent`), so that resolving links stores nothing in a header
that is not there. -/

set_option autoImplicit false

namespace Elf64.SectionTable

/-! ## Changes -/

inductive Change where
  | add (entry : Section)
  | link (source target : String)
  /-- Rewrites the header at an index, if it is one that can be changed. -/
  | modify (i : Nat) (f : SectionHeader → SectionHeader)
  | resolveLinks

/-- Makes a change. The answer is the index of a section that was added. -/
def change (table : SectionTable) : Change → Outcome SectionTable (Option Nat)
  | .add entry => (table.add entry).map some
  | .link source target => (table.link source target).map fun _ => none
  | .modify i f => (.ok none, table.modify i f)
  | .resolveLinks => table.resolveLinks.map fun _ => none

/-- The table after these changes. -/
def changeAll (table : SectionTable) (changes : List Change) : SectionTable :=
  changes.foldl (fun table item => (table.change item).2) table

/-- A new table after these changes. -/
def changed (changes : List Change) : SectionTable := changeAll {} changes

/-- Those of these changes to a new table that are not refused, with their answers. -/
def made (changes : List Change) : List (Change × Option Nat) := Outcome.accepted change {} changes

/-- The name and the index of a section that was added. -/
def Change.section? : Change × Option Nat → Option (String × Nat)
  | (.add entry, some i) => some (entry.name, i)
  | _ => none

/-- The names of two sections that were linked. -/
def Change.names? : Change × Option Nat → Option (String × String)
  | (.link source target, _) => some (source, target)
  | _ => none

/-- The sections that these changes to a new table have added. -/
def numbered (changes : List Change) : List (String × Nat) := (made changes).filterMap Change.section?

/-- The links that these changes to a new table have made. -/
def linked (changes : List Change) : List (String × String) := (made changes).filterMap Change.names?

variable {table next : SectionTable} {item : Change} {answer : Except Error (Option Nat)}

/-- The change answers this and leaves this table. -/
inductive Step (table : SectionTable) : Change → Except Error (Option Nat) → SectionTable → Prop where
  | refused (item : Change) (e : Error) : Step table item (.error e) table
  | added (entry : Section) (unused : table.indexOf? entry.name = none)
      (valid : entry.header.validate = .ok ()) :
      Step table (.add entry) (.ok (some table.size)) (table.push entry)
  | linked (source target : String) (i : Nat) (found : table.indexOf? source = some i) :
      Step table (.link source target) (.ok none)
        { table with links := table.links.filter (·.1 ≠ i) ++ [(i, target)] }
  | modified (i : Nat) (f : SectionHeader → SectionHeader) :
      Step table (.modify i f) (.ok none) (table.modify i f)
  | resolved (answer : Except Error Unit) (next : SectionTable)
      (outcome : table.resolveLinks = (answer, next)) :
      Step table .resolveLinks (answer.map fun _ => none) next

theorem step_change (table : SectionTable) (item : Change) :
    table.Step item (table.change item).1 (table.change item).2 := by
  cases item with
  | add entry =>
    simp only [change, add]
    cases checked : table.check entry.name entry.header with
    | error e => exact .refused _ e
    | ok done =>
      obtain ⟨unused, valid⟩ := check_eq_ok checked
      exact .added entry unused valid
  | link source target =>
    simp only [change]
    cases found : table.indexOf? source with
    | none =>
      rw [link_of_indexOf?_eq_none found]
      exact .refused _ _
    | some i =>
      rw [link_of_indexOf? found]
      exact .linked source target i found
  | modify i f => exact .modified i f
  | resolveLinks =>
    simp only [change]
    rcases outcome : table.resolveLinks with ⟨e | done, next⟩
    · exact .resolved (.error e) next outcome
    · exact .resolved (.ok done) next outcome

theorem alike_of_resolveLinks {answer : Except Error Unit} (outcome : table.resolveLinks = (answer, next)) :
    table.Alike next := by
  have alike := applyLinks_alike table.links table
  rwa [← resolveLinks, outcome] at alike

theorem WellFormed.step (wellFormed : table.WellFormed) (step : table.Step item answer next) :
    next.WellFormed := by
  cases step with
  | refused => exact wellFormed
  | added entry unused => exact wellFormed.push unused
  | linked source target i found => exact wellFormed.link found target
  | modified i f => exact wellFormed_modify wellFormed
  | resolved answer next outcome => exact (alike_of_resolveLinks outcome).wellFormed wellFormed

theorem wellFormed_changeAll (wellFormed : table.WellFormed) (changes : List Change) :
    (table.changeAll changes).WellFormed := by
  induction changes generalizing table with
  | nil => exact wellFormed
  | cons item rest ih => exact ih (wellFormed.step (table.step_change item))

theorem wellFormed_changed (changes : List Change) : (changed changes).WellFormed :=
  wellFormed_changeAll wellFormed_empty changes

/-- The last change is split off. A change that is refused is not among those that were made, but it may have
left its mark on the table. -/
theorem made_induction {motive : List (Change × Option Nat) → SectionTable → Prop} (start : motive [] {})
    (next : ∀ {before table item answer next}, WellFormed table → table.Step item answer next →
      motive before table → motive (before ++ (answer.toOption.map (item, ·)).toList) next)
    (changes : List Change) : motive (made changes) (changed changes) := by
  induction changes using List.reverseRecOn with
  | nil => exact start
  | append_singleton changes item ih =>
    have table : changed (changes ++ [item]) = ((changed changes).change item).2 := by
      simp [changed, changeAll]
    rw [made, Outcome.accepted_concat, table]
    exact next (wellFormed_changed changes) (step_change _ item) ih

/-! ## Order and links -/

-- The index that a section is given is its place in the order in which the sections are added.
theorem numbered_eq (changes : List Change) :
    numbered changes = ((changed changes).listing.map Prod.fst).zipIdx 1 := by
  refine made_induction (motive := fun before table => before.filterMap Change.section? =
    (table.listing.map Prod.fst).zipIdx 1) rfl ?_ changes
  intro before table item answer next _ step same
  rw [List.filterMap_append, same]
  cases step with
  | refused => exact List.append_nil _
  | added entry =>
    have listing : (table.push entry).listing = table.listing ++ [(entry.name, entry.contents)] := by
      simp [SectionTable.listing, push]
    rw [listing, List.map_append, List.zipIdx_append, List.length_map, SectionTable.listing, List.length_map,
      Array.length_toList, Nat.add_comm 1]
    rfl
  | linked source target i found => exact List.append_nil _
  | modified i f =>
    rw [listing_modify]
    exact List.append_nil _
  | resolved answer next outcome =>
    rw [(alike_of_resolveLinks outcome).listing]
    cases answer <;> exact List.append_nil _

-- The links of the table are the last ones of those that were made.
theorem records_linked (changes : List Change) : (changed changes).Records (linked changes) := by
  have start : ({} : SectionTable).Records [] := by
    intro source target
    simp [lastTarget?]
  refine made_induction (motive := fun before table => table.Records (before.filterMap Change.names?)) start ?_
    changes
  intro before table item answer next wellFormed step records
  have unchanged (same : next.links = table.links) (names : ∀ i, next.nameOf? i = table.nameOf? i) :
      next.Records (before.filterMap Change.names? ++ []) := by
    rw [List.append_nil]
    exact records.of_names same fun _ _ => names _
  rw [List.filterMap_append]
  cases step with
  | refused => exact unchanged rfl fun _ => rfl
  | added entry =>
    show Records _ (_ ++ [])
    rw [List.append_nil]
    exact records.push wellFormed entry
  | linked source target i found => exact records.link wellFormed found target
  | modified i f => exact unchanged links_modify nameOf?_modify
  | resolved answer next outcome =>
    have alike := alike_of_resolveLinks outcome
    cases answer <;> exact unchanged alike.links alike.nameOf?

/-! ## Tables in step -/

/-- Applies links like `applyLinks`, but has no outcome where a link starts from an index that has no header,
or none that can be changed. -/
def applyLinks? : List (Nat × String) → SectionTable → Option (Outcome SectionTable Unit)
  | [], table => some (.ok (), table)
  | (i, target) :: rest, table =>
    match table.indexOf? target with
    | none => some (.error (.unresolvedLink target), table)
    | some j =>
      if 1 ≤ i ∧ i < table.size then
        applyLinks? rest (table.modify i fun header => { header with link := .ofNat j })
      else none

@[simp] theorem size_modify (i : Nat) (f : SectionHeader → SectionHeader) :
    (table.modify i f).size = table.size := by
  cases i <;> simp [modify, size]

theorem applyLinks?_eq {links : List (Nat × String)}
    (inside : ∀ link ∈ links, 1 ≤ link.1 ∧ link.1 < table.size) :
    applyLinks? links table = some (applyLinks links table) := by
  induction links generalizing table with
  | nil => rfl
  | cons link rest ih =>
    obtain ⟨here, later⟩ := List.forall_mem_cons.mp inside
    cases found : table.indexOf? link.2 with
    | none => simp only [applyLinks?, applyLinks, found]
    | some j =>
      simp only [applyLinks?, applyLinks, found, if_pos here]
      -- Storing a link changes no more than a header.
      exact ih fun other member => (size_modify link.1 _).symm ▸ later other member

theorem take_encode (order : ByteOrder) (table : SectionTable) :
    (table.encode order).take 64 = List.replicate 64 0 := by
  have null : SectionHeader.null.encode order = List.replicate 64 0 := by
    cases order <;> decide
  rw [encode, headers, List.flatMap_cons, null]
  exact List.take_left' rfl

/-- The headers, the names and the links of a table agree, after sections of these names have been added to it
and have got these indexes. -/
structure Consistent (table : SectionTable) (numbered : List (String × Nat)) : Prop where
  reserved : table.get? 0 = some .null ∧ table.nameOf? 0 = none
  named : ∀ i, 1 ≤ i → i < table.size → ∃ name, table.nameOf? i = some name ∧ table.indexOf? name = some i
  indexed : ∀ name i, table.indexOf? name = some i →
    1 ≤ i ∧ i < table.size ∧ table.nameOf? i = some name
  distinct : ∀ name other i, table.indexOf? name = some i → table.indexOf? other = some i → other = name
  /-- The first section has index one, and each one after it the next. -/
  inOrder : (table.listing.map Prod.fst).zipIdx 1 = numbered
  sources : (table.links.map Prod.fst).Nodup ∧ ∀ link ∈ table.links, 1 ≤ link.1 ∧ link.1 < table.size
  /-- Links are resolved without a look at an index that is not there. -/
  resolvable : applyLinks? table.links table = some table.resolveLinks
  zeros : ∀ order, (table.encode order).take 64 = List.replicate 64 0
  /-- A section is accepted exactly if its name is new and its header is valid. -/
  accepts : ∀ entry, (∃ i, (table.add entry).1 = .ok i) ↔
    table.indexOf? entry.name = none ∧ entry.header.validate = .ok ()
  /-- A section that is accepted is put behind the others as it is, and nothing else changes. -/
  appends : ∀ entry i next, table.add entry = (.ok i, next) → i = table.size ∧
    next.headers = table.headers ++ [entry.header] ∧
    next.listing = table.listing ++ [(entry.name, entry.contents)] ∧ next.links = table.links

theorem WellFormed.source_inside (wellFormed : table.WellFormed) {link : Nat × String}
    (member : link ∈ table.links) : 1 ≤ link.1 ∧ link.1 < table.size := by
  obtain ⟨name, named⟩ := Option.isSome_iff_exists.mp (wellFormed.linked link member)
  exact ⟨Nat.pos_of_ne_zero (wellFormed.positive link member), lt_size_of_nameOf? named⟩

theorem add_accepts_iff (table : SectionTable) (entry : Section) :
    (∃ i, (table.add entry).1 = .ok i) ↔
      table.indexOf? entry.name = none ∧ entry.header.validate = .ok () := by
  rw [← check_eq_ok_iff, add]
  cases table.check entry.name entry.header <;> simp

theorem eq_push_of_add {entry : Section} {i : Nat} (added : table.add entry = (.ok i, next)) :
    i = table.size ∧ next = table.push entry := by
  rw [add] at added
  split at added <;> cases added
  exact ⟨rfl, rfl⟩

theorem nameOf?_of_lt_size {i : Nat} (positive : 1 ≤ i) (inside : i < table.size) :
    ∃ name, table.nameOf? i = some name := by
  obtain ⟨i, rfl⟩ := Nat.exists_eq_add_of_le' positive
  have bound : i < table.added.size := Nat.lt_of_succ_lt_succ inside
  exact ⟨_, by rw [nameOf?, Array.getElem?_eq_getElem bound, Option.map_some]⟩

/-- Whatever is done to a table, accepted or refused, leaves it consistent. -/
theorem consistent (changes : List Change) : (changed changes).Consistent (numbered changes) := by
  have wellFormed := wellFormed_changed changes
  exact {
    reserved := ⟨rfl, rfl⟩
    named := fun i positive inside => by
      obtain ⟨name, named⟩ := nameOf?_of_lt_size positive inside
      exact ⟨name, named, (wellFormed.indexed name i).mpr named⟩
    indexed := fun name i found => by
      have named := (wellFormed.indexed name i).mp found
      exact ⟨Nat.pos_of_ne_zero (wellFormed.ne_zero found), lt_size_of_nameOf? named, named⟩
    distinct := fun name other i found again => by
      have named := (wellFormed.indexed other i).mp again
      exact (wellFormed.index_eq_iff found named).mp rfl
    inOrder := (numbered_eq changes).symm
    sources := ⟨wellFormed.sources, fun _ => wellFormed.source_inside⟩
    resolvable := applyLinks?_eq fun _ => wellFormed.source_inside
    zeros := fun order => take_encode order _
    accepts := add_accepts_iff _
    appends := fun entry i next added => by
      obtain ⟨rfl, rfl⟩ := eq_push_of_add added
      exact ⟨rfl, by simp [headers, push], by simp [SectionTable.listing, push], rfl⟩ }

/-- Two sections linked to each other before the second one exists, a refused one between them, and a link
that is stored over a rewritten header. -/
def crossChanges : List Change := [
  .add ⟨"", { type := .progBits }, []⟩,
  .add ⟨"", { type := .noBits }, []⟩,
  .link "" ".bss",
  .resolveLinks,
  .add ⟨".bss", { type := .noBits }, []⟩,
  .modify 1 (SectionHeader.Patch.apply { link := some 9 }),
  .link ".bss" "",
  .resolveLinks]

/-- The empty name is one like any other, and a refused section leaves no gap. -/
theorem cross_consistent : numbered crossChanges = [("", 1), (".bss", 2)] ∧
    (changed crossChanges).headers.map SectionHeader.link = [0, 2, 1] ∧
    (changed crossChanges).Consistent [("", 1), (".bss", 2)] := by
  have numbers : numbered crossChanges = [("", 1), (".bss", 2)] := by decide +kernel
  have consistent := consistent crossChanges
  rw [numbers] at consistent
  exact ⟨numbers, by decide +kernel, consistent⟩

end Elf64.SectionTable
