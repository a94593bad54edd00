import Elf64.Proofs.Run

/-! The links that a run has made.

A section table keeps one link for each section, by index, and drops the older ones. Told by names from
the changes and their answers, that is the link that was made last (`Run.linkOf?_eq_some_iff`). -/

set_option autoImplicit false

namespace Elf64

/-- The names of the two sections that a change has linked. -/
def Edit.link? : Edit → Except Error Answer → Option (String × String)
  | link source target, .ok _ => some (source, target)
  | _, _ => none

@[simp] theorem Edit.link?_error (edit : Edit) (e : Error) : edit.link? (.error e) = none := by
  cases edit <;> rfl

/-- The target of the last link from a source. -/
def lastTarget? (links : List (String × String)) (source : String) : Option String :=
  ((links.filter fun link => link.1 = source).getLast?).map Prod.snd

theorem lastTarget?_concat (links : List (String × String)) (source target name : String) :
    lastTarget? (links ++ [(source, target)]) name =
      if source = name then some target else lastTarget? links name := by
  unfold lastTarget?
  by_cases same : source = name <;> simp [List.filter_append, same]

namespace Run

/-- All links, in the order in which they were made. -/
def links (run : Run) : List (String × String) :=
  (symtabName, strtabName) :: run.history.filterMap fun entry => entry.1.link? entry.2

/-- The name that the section of this name was linked to last. -/
def linkOf? (run : Run) (source : String) : Option String := lastTarget? run.links source

theorem links_extend (run : Run) (edit : Edit) : (run.extend edit).links =
    run.links ++ (edit.link? (edit.apply run.image).1).toList := by
  rw [links, links, history_extend, List.filterMap_append, ← List.cons_append, filterMap_single]

end Run

namespace SectionTable

variable {table old new : SectionTable}

/-- The links of the table are the last ones of the list. -/
def Records (table : SectionTable) (links : List (String × String)) : Prop :=
  ∀ source target, lastTarget? links source = some target ↔
    ∃ i, table.nameOf? i = some source ∧ (i, target) ∈ table.links

-- Only the names of sections with a link matter.
theorem Records.of_names {links : List (String × String)} (records : old.Records links)
    (same : new.links = old.links) (names : ∀ link ∈ old.links, new.nameOf? link.1 = old.nameOf? link.1) :
    new.Records links := by
  intro source target
  rw [records source target, same]
  refine exists_congr fun i => and_congr_left fun member => ?_
  rw [names _ member]

theorem Records.push {links : List (String × String)} (records : table.Records links)
    (wellFormed : table.WellFormed) (entry : Section) : (table.push entry).Records links := by
  refine records.of_names rfl fun link member => ?_
  obtain ⟨name, named⟩ := Option.isSome_iff_exists.mp (wellFormed.linked link member)
  rw [nameOf?_push, if_neg (Nat.ne_of_lt (lt_size_of_nameOf? named))]

theorem Records.link {links : List (String × String)} (records : table.Records links)
    (wellFormed : table.WellFormed) {source : String} {i : Nat} (found : table.indexOf? source = some i)
    (target : String) : Records { table with links := table.links.filter (·.1 ≠ i) ++ [(i, target)] }
      (links ++ [(source, target)]) := by
  have named := (wellFormed.indexed source i).mp found
  intro name other
  rw [lastTarget?_concat]
  show _ ↔ ∃ j, table.nameOf? j = some name ∧ (j, other) ∈ table.links.filter (·.1 ≠ i) ++ [(i, target)]
  simp only [List.mem_append, List.mem_filter, List.mem_singleton, Prod.mk.injEq, decide_eq_true_eq]
  by_cases same : source = name
  · subst same
    rw [if_pos rfl, Option.some.injEq]
    constructor
    · rintro rfl
      exact ⟨i, named, .inr ⟨rfl, rfl⟩⟩
    · -- No other section has the name of the source.
      rintro ⟨j, here, ⟨-, apart⟩ | ⟨-, rfl⟩⟩
      · have again := (wellFormed.indexed source j).mpr here
        exact absurd (Option.some.inj (again.symm.trans found)) apart
      · rfl
  · rw [if_neg same, records name other]
    refine exists_congr fun j => and_congr_right fun here => ?_
    have apart : j ≠ i := by
      rintro rfl
      exact same (Option.some.inj (named.symm.trans here))
    simp [apart]

theorem Records.lastTarget?_eq_some_iff {links : List (String × String)} (records : table.Records links)
    (wellFormed : table.WellFormed) {source target : String} : lastTarget? links source = some target ↔
      ∃ i, table.indexOf? source = some i ∧ (i, target) ∈ table.links := by
  simp only [wellFormed.indexed]
  exact records source target

theorem Records.lastTarget?_of_mem {links : List (String × String)} (records : table.Records links)
    (wellFormed : table.WellFormed) {link : Nat × String} (member : link ∈ table.links) :
    ∃ source, lastTarget? links source = some link.2 := by
  obtain ⟨source, named⟩ := Option.isSome_iff_exists.mp (wellFormed.linked link member)
  exact ⟨source, (records source link.2).mpr ⟨link.1, named, member⟩⟩

-- An index fits into a link wherever the count of the sections does.
theorem Resolved.find?_link (resolved : table.Resolved) (wellFormed : table.WellFormed)
    (small : table.size ≤ 0x100000000) {source target : String} {i : Nat}
    (found : table.indexOf? source = some i) (member : (i, target) ∈ table.links) : ∃ header,
      table.find? source = some header ∧ table.indexOf? target = some header.link.toNat := by
  obtain ⟨j, there, stored⟩ := resolved _ member
  obtain ⟨header, here⟩ := get?_of_nameOf? ((wellFormed.indexed source i).mp found)
  have bound := lt_size_of_nameOf? ((wellFormed.indexed target j).mp there)
  refine ⟨header, (find?_of_indexOf? found).trans here, ?_⟩
  rw [stored header here, UInt32.toNat_ofNat_of_lt' (Nat.lt_of_lt_of_le bound small), there]

end SectionTable

theorem Image.Step.records {image next : Image} {edit : Edit} {answer : Except Error Answer}
    (wellFormed : image.WellFormed) (step : image.Step edit answer next)
    {links : List (String × String)} (records : image.sections.Records links) :
    next.sections.Records (links ++ (edit.link? answer).toList) := by
  cases step with
  | refused | refusedText => simpa [reopen] using records
  | addedString | addedSymbol | editedHeader => simpa [Edit.link?] using records
  | missedSection => simpa [Edit.link?, reopen] using records
  | linked source target i found => exact records.link wellFormed.sections found target
  | addedSection name header contents =>
    show SectionTable.Records _ (links ++ [])
    rw [List.append_nil]
    exact records.push wellFormed.sections _
  | editedSection name f i =>
    show SectionTable.Records _ (links ++ [])
    rw [List.append_nil]
    exact records.of_names SectionTable.links_modify fun _ _ => SectionTable.nameOf?_modify _
  | finalized answer next outcome =>
    have alike := (alike_of_finalize outcome).sections
    show SectionTable.Records _ (links ++ [])
    rw [List.append_nil]
    exact records.of_names alike.links fun _ _ => alike.nameOf? _

namespace Run

theorem records (run : Run) : run.image.sections.Records run.links := by
  induction run using induction with
  | start config =>
    -- A new image has the link of the symbol table and no other.
    have only : links ⟨config, []⟩ = [] ++ [(symtabName, strtabName)] := rfl
    have symtab : (Image.ofConfig config).sections.nameOf? 1 = some symtabName := rfl
    intro source target
    rw [only, lastTarget?_concat]
    show _ ↔ ∃ i, (Image.ofConfig config).sections.nameOf? i = some source ∧ (i, target) ∈ [(1, strtabName)]
    constructor
    · intro last
      split at last
      · next same =>
        subst same
        obtain rfl := Option.some.inj last
        exact ⟨1, symtab, List.mem_singleton_self _⟩
      · contradiction
    · rintro ⟨i, named, member⟩
      obtain ⟨rfl, rfl⟩ := Prod.mk.inj (List.mem_singleton.mp member)
      rw [if_pos (Option.some.inj (symtab.symm.trans named))]
  | next run edit ih =>
    rw [image_extend, links_extend]
    exact (Image.step_apply edit run.image).records run.wellFormed ih

/-- The link of a section is the last one that was made for its name. -/
theorem linkOf?_eq_some_iff (run : Run) {source target : String} : run.linkOf? source = some target ↔
    ∃ i, run.image.sections.indexOf? source = some i ∧ (i, target) ∈ run.image.sections.links :=
  run.records.lastTarget?_eq_some_iff run.wellFormed.sections

theorem linkOf?_of_mem (run : Run) {link : Nat × String} (member : link ∈ run.image.sections.links) :
    ∃ source, run.linkOf? source = some link.2 :=
  run.records.lastTarget?_of_mem run.wellFormed.sections member

end Run

end Elf64
