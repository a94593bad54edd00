import Elf64.Proofs.Replay
import Elf64.Proofs.SectionChanges
import Elf64.Proofs.Verdicts

/-! Links to sections that are added later.

Resolving the links of a table stores nothing but links, and stops at the first target that is missing. Tables
that differ in no more than that (`SectionTable.SameButLinks`) go on to do so whatever is changed in both of
them, and are equal once the links of both are resolved (`SectionTable.SameButLinks.eq_of_resolved`). So what
an attempt that failed has stored does no harm to a later one. -/

set_option autoImplicit false

namespace Elf64.SectionTable

variable {table old new : SectionTable} {i : Nat}

/-- A header without its link, if the section at this index is linked by name. -/
def unlinked (table : SectionTable) (i : Nat) (header : SectionHeader) : SectionHeader :=
  { header with link := if i ∈ table.links.map Prod.fst then 0 else header.link }

theorem unlinked_of_mem (linked : i ∈ table.links.map Prod.fst) :
    table.unlinked i = fun header => { header with link := 0 } := by
  funext header
  rw [unlinked, if_pos linked]

theorem unlinked_of_not_mem (free : i ∉ table.links.map Prod.fst) : table.unlinked i = id := by
  funext header
  rw [unlinked, if_neg free]
  rfl

-- The link is all that may be left out of a header.
theorem rest_of_unlinked {a b : SectionHeader} (same : table.unlinked i a = table.unlinked i b) :
    { a with link := 0 } = { b with link := 0 } :=
  congrArg (fun header : SectionHeader => { header with link := 0 }) same

-- With more links, less is left of a header.
theorem unlinked_mono {next : SectionTable} {a b : SectionHeader}
    (links : i ∈ table.links.map Prod.fst → i ∈ next.links.map Prod.fst)
    (same : table.unlinked i a = table.unlinked i b) : next.unlinked i a = next.unlinked i b := by
  by_cases linked : i ∈ next.links.map Prod.fst
  · rw [unlinked_of_mem linked]
    exact rest_of_unlinked same
  · rw [unlinked_of_not_mem linked]
    rwa [unlinked_of_not_mem fun older => linked (links older)] at same

/-- The tables differ at most in the links that are stored in the headers of sections linked by name. -/
structure SameButLinks (old new : SectionTable) : Prop where
  listing : new.listing = old.listing
  index : new.index = old.index
  links : new.links = old.links
  headers : ∀ i, (new.get? i).map (old.unlinked i) = (old.get? i).map (old.unlinked i)

namespace SameButLinks

theorem unlinked (same : old.SameButLinks new) : new.unlinked = old.unlinked := by
  funext i header
  simp only [SectionTable.unlinked, same.links]

theorem symm (same : old.SameButLinks new) : new.SameButLinks old where
  listing := same.listing.symm
  index := same.index.symm
  links := same.links.symm
  headers i := by
    rw [same.unlinked]
    exact (same.headers i).symm

theorem trans {next : SectionTable} (first : old.SameButLinks new) (second : new.SameButLinks next) :
    old.SameButLinks next where
  listing := second.listing.trans first.listing
  index := second.index.trans first.index
  links := second.links.trans first.links
  headers i := by
    rw [← first.unlinked, second.headers, first.unlinked, first.headers]

theorem indexOf? (same : old.SameButLinks new) (name : String) : new.indexOf? name = old.indexOf? name := by
  simp only [SectionTable.indexOf?, same.index]

theorem size (same : old.SameButLinks new) : new.size = old.size := by
  simpa [SectionTable.listing, SectionTable.size] using congrArg List.length same.listing

-- The headers agree where there are no links, and where there are links both hold the same index.
theorem eq_of_resolved (same : old.SameButLinks new) (first : old.Resolved) (second : new.Resolved) :
    new = old := by
  refine eq_of_get? same.listing (fun i => ?_) same.index same.links
  suffices equal : (new.get? i).map id = (old.get? i).map id by simpa using equal
  refine map_eq_map (same.headers i) fun header other here there equal => ?_
  by_cases linked : i ∈ old.links.map Prod.fst
  · have link := first.link_eq second same.index same.links linked here there
    have rest := rest_of_unlinked equal
    exact congrArg₂ (fun (header : SectionHeader) link => { header with link }) rest link
  · rwa [unlinked_of_not_mem linked] at equal

end SameButLinks

theorem resolveLinks_sameButLinks (table : SectionTable) : table.SameButLinks table.resolveLinks.2 := by
  have alike := applyLinks_alike table.links table
  refine ⟨alike.listing, alike.index, alike.links, fun i => ?_⟩
  by_cases linked : i ∈ table.links.map Prod.fst
  · apply map_get?_applyLinks
    intro header link
    rw [unlinked_of_mem linked]
  · rw [resolveLinks, get?_applyLinks linked]

/-! ## Changes -/

/-- What a header gets does not depend on its link, unless for the link itself. -/
def Change.IgnoresLinks : Change → Prop
  | .modify _ f => Fieldwise (fun header : SectionHeader => { header with link := 0 }) f
  | _ => True

namespace SameButLinks

theorem push (same : old.SameButLinks new) (entry : Section) :
    (old.push entry).SameButLinks (new.push entry) where
  listing := by
    have listing := same.listing
    simp only [SectionTable.listing] at listing
    simp [SectionTable.push, SectionTable.listing, listing]
  index := by
    simp only [SectionTable.push, same.index, same.size]
  links := same.links
  headers j := by
    rw [get?_push, get?_push, same.size]
    split
    · rfl
    · exact same.headers j

theorem link (same : old.SameButLinks new) (source target : String) :
    (new.link source target).1 = (old.link source target).1 ∧
      (old.link source target).2.SameButLinks (new.link source target).2 := by
  have index := same.indexOf? source
  cases found : old.indexOf? source with
  | none =>
    rw [link_of_indexOf?_eq_none found, link_of_indexOf?_eq_none (index.trans found)]
    exact ⟨rfl, same⟩
  | some i =>
    rw [link_of_indexOf? found, link_of_indexOf? (index.trans found), same.links]
    refine ⟨rfl, same.listing, same.index, rfl, fun j => ?_⟩
    -- The links that are dropped have the source of the new one.
    refine map_eq_map (same.headers j) fun a b _ _ equal => unlinked_mono ?_ equal
    intro linked
    by_cases dropped : j = i
    · simp [dropped]
    · simpa [dropped] using linked

theorem modify (same : old.SameButLinks new) {f : SectionHeader → SectionHeader}
    (ignores : Fieldwise (fun header : SectionHeader => { header with link := 0 }) f) :
    (old.modify i f).SameButLinks (new.modify i f) where
  listing := by rw [listing_modify, listing_modify, same.listing]
  index := by rw [index_modify, index_modify, same.index]
  links := by rw [links_modify, links_modify, same.links]
  headers j := by
    have unchanged : (old.modify i f).unlinked = old.unlinked := by cases i <;> rfl
    rw [unchanged]
    refine map_get?_modify_of_map same.headers (fun a b _ equal => ?_) j
    by_cases linked : i ∈ old.links.map Prod.fst
    · rw [unlinked_of_mem linked] at equal ⊢
      exact ignores a b equal
    · rw [unlinked_of_not_mem linked] at equal ⊢
      exact congrArg f equal

theorem resolveLinks (same : old.SameButLinks new) : new.resolveLinks.1 = old.resolveLinks.1 ∧
    old.resolveLinks.2.SameButLinks new.resolveLinks.2 := by
  refine ⟨?_, (old.resolveLinks_sameButLinks.symm.trans same).trans new.resolveLinks_sameButLinks⟩
  rw [SectionTable.resolveLinks, same.links]
  exact applyLinks_answer _ same.index

-- One case for each change. None of them looks at a link, except to rewrite it.
theorem change (same : old.SameButLinks new) {item : Change} (ignores : item.IgnoresLinks) :
    (new.change item).1 = (old.change item).1 ∧ (old.change item).2.SameButLinks (new.change item).2 := by
  cases item with
  | add entry =>
    have checked : new.check entry.name entry.header = old.check entry.name entry.header := by
      simp only [check, same.index]
    simp only [SectionTable.change, add, checked, same.size]
    cases old.check entry.name entry.header with
    | error e => exact ⟨rfl, same⟩
    | ok done => exact ⟨rfl, same.push entry⟩
  | link source target =>
    obtain ⟨answer, next⟩ := same.link source target
    simp only [SectionTable.change, Outcome.fst_map, Outcome.snd_map, answer]
    exact ⟨trivial, next⟩
  | modify i f => exact ⟨rfl, same.modify ignores⟩
  | resolveLinks =>
    obtain ⟨answer, next⟩ := same.resolveLinks
    simp only [SectionTable.change, Outcome.fst_map, Outcome.snd_map, answer]
    exact ⟨trivial, next⟩

theorem changeAll (same : old.SameButLinks new) {changes : List Change}
    (ignores : ∀ item ∈ changes, item.IgnoresLinks) :
    (old.changeAll changes).SameButLinks (new.changeAll changes) := by
  induction changes generalizing old new with
  | nil => exact same
  | cons item rest ih =>
    obtain ⟨here, later⟩ := List.forall_mem_cons.mp ignores
    exact ih (same.change here).2 later

-- Once no target is missing, nothing is left of how the tables differ.
theorem resolves (same : old.SameButLinks new) (first : old.WellFormed) (second : new.WellFormed)
    (targets : ∀ link ∈ old.links, (old.indexOf? link.2).isSome) :
    ∃ final, old.resolveLinks = (.ok (), final) ∧ new.resolveLinks = (.ok (), final) := by
  obtain ⟨answer, left⟩ := same.resolveLinks
  have done : old.resolveLinks.1 = .ok () := applyLinks_eq_ok_iff.mpr targets
  have again := answer.trans done
  have resolved := first.resolved (Prod.ext done rfl)
  have equal := left.eq_of_resolved resolved (second.resolved (Prod.ext again rfl))
  exact ⟨_, Prod.ext done rfl, Prod.ext again equal⟩

end SameButLinks

/-! ## Last targets -/

/-- Resolving the links of a table stores the last of the links that were made for each section. -/
structure LateLinks (table : SectionTable) (made : List (String × String)) : Prop where
  recorded : ∀ source target, lastTarget? made source = some target ↔
    ∃ i, table.indexOf? source = some i ∧ (i, target) ∈ table.links
  answer : table.resolveLinks.1 = .ok () ↔
    ∀ source target, lastTarget? made source = some target → (table.indexOf? target).isSome
  stored : ∀ next, table.resolveLinks = (.ok (), next) →
    ∀ source target, lastTarget? made source = some target → ∃ header,
      next.find? source = some header ∧ next.indexOf? target = some header.link.toNat
  missing : ∀ e next, table.resolveLinks = (.error e, next) → e.kind = .unknownSection ∧
    ∃ source target, lastTarget? made source = some target ∧ table.indexOf? target = none ∧
      e = .unresolvedLink target
  /-- Success or not, no more than links changes. -/
  frame : table.SameButLinks table.resolveLinks.2
  /-- A failure is forgotten when the targets have been added. -/
  harmless : ∀ e next later, table.resolveLinks = (.error e, next) →
    (∀ item ∈ later, item.IgnoresLinks) →
    (∀ link ∈ (table.changeAll later).links, ((table.changeAll later).indexOf? link.2).isSome) →
    ∃ final, (table.changeAll later).resolveLinks = (.ok (), final) ∧
      (next.changeAll later).resolveLinks = (.ok (), final)

/-- The last link of each section is the one that counts, whenever its target is added and whatever else is
stored in its place. -/
theorem late_links (changes : List Change) (small : (changed changes).size < 0x100000000) :
    (changed changes).LateLinks (linked changes) := by
  have wellFormed := wellFormed_changed changes
  have records := records_linked changes
  exact {
    recorded := fun source target => records.lastTarget?_eq_some_iff wellFormed
    answer := by
      rw [SectionTable.resolveLinks, applyLinks_eq_ok_iff]
      constructor
      · intro targets source target last
        obtain ⟨i, -, member⟩ := (records.lastTarget?_eq_some_iff wellFormed).mp last
        exact targets _ member
      · intro targets link member
        obtain ⟨source, last⟩ := records.lastTarget?_of_mem wellFormed member
        exact targets source link.2 last
    stored := by
      intro next outcome source target last
      have alike := alike_of_resolveLinks outcome
      obtain ⟨i, found, member⟩ := (records.lastTarget?_eq_some_iff wellFormed).mp last
      have fits : next.size ≤ 0x100000000 := by
        rw [alike.size]
        exact Nat.le_of_lt small
      rw [← alike.indexOf?] at found
      rw [← alike.links] at member
      exact (wellFormed.resolved outcome).find?_link (alike.wellFormed wellFormed) fits found member
    missing := by
      intro e next outcome
      obtain ⟨link, member, missing, rfl⟩ := applyLinks_eq_error (congrArg Prod.fst outcome)
      obtain ⟨source, last⟩ := records.lastTarget?_of_mem wellFormed member
      exact ⟨rfl, source, link.2, last, missing, rfl⟩
    frame := resolveLinks_sameButLinks _
    harmless := by
      intro e next later outcome ignores targets
      have same : (changed changes).SameButLinks next := by
        have frame := resolveLinks_sameButLinks (changed changes)
        rwa [outcome] at frame
      have again := (alike_of_resolveLinks outcome).wellFormed wellFormed
      exact (same.changeAll ignores).resolves (wellFormed_changeAll wellFormed later)
        (wellFormed_changeAll again later) targets }

/-- A section is linked to itself, and then to one that is added later. Before that the links are resolved in
vain, and a number is stored in the place of the link. -/
def crossed : List Change := [
  .add ⟨".text", { type := .progBits }, []⟩,
  .link ".text" ".text",
  .link ".text" ".data",
  .resolveLinks,
  .modify 1 (SectionHeader.Patch.apply { link := some 7 }),
  .add ⟨".data", { type := .progBits }, []⟩,
  .link ".data" ".text"]

theorem crossed_late_links : (changed crossed).size < 0x100000000 ∧
    (changed crossed).LateLinks (linked crossed) ∧
    linked crossed = [(".text", ".text"), (".text", ".data"), (".data", ".text")] ∧
    (changed (crossed.take 5)).resolveLinks.1 = .error (.unresolvedLink ".data") ∧
    (changed crossed).resolveLinks.1 = .ok () ∧
    (changed crossed).resolveLinks.2.headers.map SectionHeader.link = [0, 2, 1] :=
  ⟨by decide +kernel, late_links crossed (by decide +kernel), by decide +kernel, by decide +kernel,
    by decide +kernel, by decide +kernel⟩

end Elf64.SectionTable
