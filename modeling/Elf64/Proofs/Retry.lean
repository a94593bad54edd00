import Elf64.Proofs.Finalize

/-! Finalizing again after a failure.

Finalizing may stop at each of its stages, with a part of the headers rewritten. When it is run again, the
stage that has failed finds what it has left and fails once more, and those before it find in place what they
would store (`Outcome.Repeats.andThen`). So a second attempt ends where the first one has ended
(`Image.finalize_again_of_failed`). -/

set_option autoImplicit false

namespace Elf64

/-! ## Actions done twice -/

/-- Doing it once more answers the same and changes nothing. -/
def Outcome.Repeats {σ α : Type} (act : σ → Outcome σ α) (state : σ) : Prop := act (act state).2 = act state

-- The first action has to find in place what it has stored, whatever is done after it.
theorem Outcome.Repeats.andThen {σ α β : Type} {first : σ → Outcome σ α} {next : α → σ → Outcome σ β}
    {state : σ} (once : Repeats first state)
    (rest : ∀ a middle, first state = (.ok a, middle) → Repeats (next a) middle)
    (kept : ∀ a middle, first state = (.ok a, middle) →
      first (next a middle).2 = (.ok a, (next a middle).2)) :
    Repeats (fun state => (first state).andThen next) state := by
  have once : first (first state).2 = first state := once
  show (first ((first state).andThen next).2).andThen next = (first state).andThen next
  rcases done : first state with ⟨e | a, middle⟩
  · rw [done] at once
    rw [andThen_error, once, andThen_error]
  · have again := rest a middle done
    rw [andThen_ok, kept a middle done, andThen_ok]
    exact again

-- What has been done is found in place.
theorem Outcome.Repeats.of_done {σ α : Type} {act : σ → Outcome σ α} {state middle : σ}
    {answer : Except Error α} (repeats : Repeats act state) (done : act state = (answer, middle)) :
    act middle = (answer, middle) := by
  have again : act (act state).2 = act state := repeats
  rwa [done] at again

namespace SectionTable

variable {table : SectionTable} {i : Nat} {f : SectionHeader → SectionHeader}

theorem modify_modify (again : ∀ header, f (f header) = f header) :
    (table.modify i f).modify i f = table.modify i f := by
  cases i with
  | zero => rfl
  | succ i =>
    refine modify_eq_self fun header here => ?_
    rw [get?_modify_self, if_neg (Nat.succ_ne_zero i)] at here
    obtain ⟨before, -, rfl⟩ := Option.map_eq_some_iff.mp here
    exact again before

-- A link that is applied is in place from then on, since no other link has its source.
theorem applyLinks_repeats {links : List (Nat × String)} (sources : (links.map Prod.fst).Nodup)
    (positive : ∀ link ∈ links, link.1 ≠ 0) : Outcome.Repeats (applyLinks links) table := by
  unfold Outcome.Repeats
  induction links generalizing table with
  | nil => rfl
  | cons link rest ih =>
    obtain ⟨fresh, sources⟩ := List.nodup_cons.mp sources
    obtain ⟨here, later⟩ := List.forall_mem_cons.mp positive
    cases found : table.indexOf? link.2 with
    | none => simp only [applyLinks, found]
    | some j =>
      simp only [applyLinks, found]
      generalize stored : (table.modify link.1 fun header => { header with link := .ofNat j }) = before
      have alike := applyLinks_alike rest before
      have again : (applyLinks rest before).2.indexOf? link.2 = some j := by
        rw [alike.indexOf?, ← stored, indexOf?, index_modify]
        exact found
      simp only [again]
      rw [modify_eq_self, ih sources later]
      intro header there
      rw [get?_applyLinks fresh, ← stored, get?_modify_self, if_neg here] at there
      obtain ⟨old, -, rfl⟩ := Option.map_eq_some_iff.mp there
      rfl

theorem WellFormed.resolveLinks_repeats (wellFormed : table.WellFormed) :
    Outcome.Repeats resolveLinks table := by
  have again : Outcome.Repeats (applyLinks table.links) table :=
    applyLinks_repeats wellFormed.sources wellFormed.positive
  have links := (applyLinks_alike table.links table).links
  unfold Outcome.Repeats at again ⊢
  rw [resolveLinks, resolveLinks, links]
  exact again

end SectionTable

-- The sections are placed again where they are, and the last of them fails again, if it has failed.
theorem placeAll_again {sizeOf : Section → Nat}
    (stable : ∀ entry header, sizeOf { entry with header } = sizeOf entry) (placed : Array Section)
    (cursor : Nat) (entries : List Section) : ∃ new,
      (placeAll sizeOf placed cursor entries).2 = placed.appendList new ∧
      ∀ before, placeAll sizeOf before cursor new =
        ((placeAll sizeOf placed cursor entries).1, before.appendList new) := by
  induction entries generalizing placed cursor with
  | nil => exact ⟨[], by simp [placeAll], fun before => by simp [placeAll]⟩
  | cons entry rest ih =>
    have again := entry.header.place_place (sizeOf entry) cursor
    rcases moved : entry.header.place (sizeOf entry) cursor with ⟨e | next, header⟩
    · rw [moved] at again
      refine ⟨{ entry with header } :: rest, ?_, fun before => ?_⟩
      · simp [placeAll, moved]
      · simp [placeAll, moved, stable, again]
    · rw [moved] at again
      obtain ⟨new, left, repeated⟩ := ih (placed.push { entry with header }) next
      refine ⟨{ entry with header } :: new, ?_, fun before => ?_⟩
      · simp [placeAll, moved, left]
      · simp [placeAll, moved, stable, again, repeated]

theorem placeAll_placeAll {sizeOf : Section → Nat}
    (stable : ∀ entry header, sizeOf { entry with header } = sizeOf entry) (cursor : Nat)
    (entries : List Section) : placeAll sizeOf #[] cursor (placeAll sizeOf #[] cursor entries).2.toList =
      placeAll sizeOf #[] cursor entries := by
  obtain ⟨new, left, again⟩ := placeAll_again stable #[] cursor entries
  have listed : (#[].appendList new).toList = new := by simp
  rw [left, listed, again, ← left]

namespace Image

variable {image old new : Image}

/-! ## What the stages leave alone -/

/-- The images agree in this view of the section headers, and in what finalizing does not store. -/
structure SameView {α : Type} (view : SectionHeader → α) (old new : Image) : Prop where
  alike : old.Alike new
  headers : ∀ i, (new.sections.get? i).map view = (old.sections.get? i).map view

section

variable {α : Type} {view : SectionHeader → α}

theorem SameView.refl (image : Image) : image.SameView view image :=
  ⟨⟨rfl, .refl _, rfl, rfl⟩, fun _ => rfl⟩

theorem SameView.trans {next : Image} (first : old.SameView view new) (second : new.SameView view next) :
    old.SameView view next :=
  ⟨first.alike.trans second.alike, fun i => (second.headers i).trans (first.headers i)⟩

theorem storeFirstGlobal_sameView (blind : ∀ header info, view { header with info } = view header)
    (image : Image) : image.SameView view image.storeFirstGlobal.2 := by
  refine Outcome.andThen_keeps (.refl image) fun index state _ here => ?_
  refine Outcome.andThen_keeps here fun _ state _ here => here.trans ?_
  have alike : state.sections.Alike (state.sections.modify index fun header =>
      { header with info := .ofNat image.symbols.firstGlobal }) := SectionTable.modify_alike fun _ => rfl
  exact ⟨⟨rfl, alike, rfl, rfl⟩, SectionTable.map_get?_modify fun header => blind header _⟩

theorem snd_layOut (image : Image) : image.layOut.2 = { image with sections := { image.sections with
    added := (placeAll image.contentsSize #[] image.contentsStart image.sections.added.toList).2 } } := by
  simp only [layOut]
  rcases placeAll image.contentsSize #[] image.contentsStart
    image.sections.added.toList with ⟨e | size, added⟩
  · rfl
  · rw [Outcome.andThen_ok]
    split <;> rfl

theorem layOut_sameView (blind : ∀ header offset size, view { header with offset, size } = view header)
    (image : Image) : image.SameView view image.layOut.2 := by
  refine ⟨image.layOut_adjusts.alike, fun i => ?_⟩
  rw [snd_layOut]
  exact map_get?_placeAll (fun header offset size _ => blind header offset size) _ _ image.sections i

theorem close_sameView (image : Image) (size : Nat) : image.SameView view (image.close size).2 := by
  refine ⟨image.close_alike size, fun i => ?_⟩
  obtain ⟨header, finalSize, -, closed⟩ := image.close_keeps size
  rw [closed]

end

/-! ## The stages, done twice -/

theorem resolveLinks_repeats (wellFormed : image.sections.WellFormed) :
    Outcome.Repeats resolveLinks image := by
  have again : image.sections.resolveLinks.2.resolveLinks = image.sections.resolveLinks :=
    wellFormed.resolveLinks_repeats
  exact congrArg (fun outcome : Outcome SectionTable Unit =>
    (outcome.1, { image with sections := outcome.2 })) again

theorem storeFirstGlobal_repeats (image : Image) : Outcome.Repeats storeFirstGlobal image := by
  show image.storeFirstGlobal.2.storeFirstGlobal = image.storeFirstGlobal
  cases found : image.sections.require symtabName with
  | error e => simp only [storeFirstGlobal, found, Outcome.andThen_error]
  | ok index =>
    cases checked : (FixedInt.count image.symbols.firstGlobal .word).check with
    | error e => simp only [storeFirstGlobal, found, checked, Outcome.andThen_ok, Outcome.andThen_error]
    | ok done =>
      have again (f : SectionHeader → SectionHeader) :
          (image.sections.modify index f).require symtabName = .ok index := by
        rw [SectionTable.require_eq_ok_iff, SectionTable.indexOf?, SectionTable.index_modify]
        exact SectionTable.require_eq_ok_iff.mp found
      simp only [storeFirstGlobal, found, checked, again, Outcome.andThen_ok]
      rw [SectionTable.modify_modify]
      intro header
      rfl

theorem layOut_repeats (image : Image) : Outcome.Repeats layOut image := by
  have alike := image.layOut_adjusts.alike
  have stable (entry : Section) (header : SectionHeader) :
      image.contentsSize { entry with header } = image.contentsSize entry := rfl
  have placed := placeAll_placeAll stable image.contentsStart image.sections.added.toList
  unfold Outcome.Repeats
  rw [layOut, alike.contentsSize, alike.contentsStart, snd_layOut]
  dsimp only
  rw [placed]
  rfl

theorem close_repeats (image : Image) (size : Nat) :
    Outcome.Repeats (fun image => image.close size) image := by
  show (image.close size).2.close size = image.close size
  cases found : image.sections.require strtabName with
  | error e => simp only [close, found, Outcome.andThen_error]
  | ok index =>
    cases closed : FileHeader.close { image.header with sectionTableOffset := .ofNat FileHeader.recordSize }
        image.sections.size index with
    | error e => simp only [close, found, closed, Outcome.andThen_ok, Outcome.andThen_error]
    | ok header =>
      have again := FileHeader.close_again closed
      obtain ⟨-, -, -, -, rfl⟩ := FileHeader.close_eq_ok_iff.mp closed
      simp only [close, found, closed, Outcome.andThen_ok, again]

-- What finds its number in place is the stage that stores it.
theorem stored_of_storeFirstGlobal (wellFormed : image.sections.WellFormed)
    (done : image.storeFirstGlobal = (.ok (), image)) : ∃ index,
      image.sections.indexOf? symtabName = some index ∧ image.symbols.firstGlobal < 0x100000000 ∧
      ∀ header, image.sections.get? index = some header → header.info = .ofNat image.symbols.firstGlobal := by
  obtain ⟨index, found, small, same⟩ := storeFirstGlobal_eq_ok_iff.mp done
  refine ⟨index, found, small, fun header here => ?_⟩
  have stored := congrArg (fun image : Image => image.sections.get? index) same
  dsimp only at stored
  rw [SectionTable.get?_modify_self, if_neg (wellFormed.ne_zero found), here] at stored
  exact congrArg SectionHeader.info (Option.some.inj stored)

theorem storeFirstGlobal_of_sameView (wellFormed : old.sections.WellFormed)
    (done : old.storeFirstGlobal = (.ok (), old)) (same : old.SameView SectionHeader.info new) :
    new.storeFirstGlobal = (.ok (), new) := by
  obtain ⟨index, found, small, stored⟩ := stored_of_storeFirstGlobal wellFormed done
  rw [← same.alike.symbols] at small stored
  refine storeFirstGlobal_of_stored ((same.alike.sections.indexOf? _).trans found) small fun header here => ?_
  have info := same.headers index
  rw [here] at info
  obtain ⟨before, there, equal⟩ := Option.map_eq_some_iff.mp info.symm
  exact equal.symm.trans (stored before there)

theorem resolveLinks_of_sameView (resolved : old.sections.Resolved)
    (same : old.SameView SectionHeader.link new) : new.resolveLinks = (.ok (), new) := by
  have still := resolved.of_alike same.alike.sections same.headers
  exact resolveLinks_eq_ok_iff.mpr ⟨_, SectionTable.applyLinks_of_links still, rfl⟩

/-! ## All stages, from the last one on -/

-- Closing changes nothing that the layout looks at.
theorem repeats_from_layOut (image : Image) :
    Outcome.Repeats (fun image => image.layOut.andThen fun size image => image.close size) image := by
  refine image.layOut_repeats.andThen (fun size middle _ => middle.close_repeats size)
    fun size middle done => ?_
  obtain ⟨added, placed, bounded, same⟩ := layOut_eq_ok_iff.mp (image.layOut_repeats.of_done done)
  obtain ⟨header, finalSize, -, closed⟩ := middle.close_keeps size
  rw [closed]
  refine layOut_eq_ok_iff.mpr ⟨added, placed, bounded, ?_⟩
  exact congrArg (fun image : Image => { image with header, finalSize }) same

-- What follows keeps the infos of the sections.
theorem repeats_from_storeFirstGlobal (wellFormed : image.sections.WellFormed) : Outcome.Repeats (fun image =>
    image.storeFirstGlobal.andThen fun _ image =>
    image.layOut.andThen fun size image => image.close size) image := by
  refine image.storeFirstGlobal_repeats.andThen (fun _ middle _ => middle.repeats_from_layOut)
    fun _ middle done => ?_
  have alike := image.storeFirstGlobal_adjusts.alike
  rw [done] at alike
  refine storeFirstGlobal_of_sameView (alike.sections.wellFormed wellFormed)
    (image.storeFirstGlobal_repeats.of_done done) ?_
  refine Outcome.andThen_keeps (middle.layOut_sameView fun _ _ _ => rfl) fun size state _ here => ?_
  exact here.trans (state.close_sameView size)

-- What follows keeps the links of the sections.
theorem repeats_from_resolveLinks (wellFormed : image.sections.WellFormed) : Outcome.Repeats (fun image =>
    image.resolveLinks.andThen fun _ image =>
    image.storeFirstGlobal.andThen fun _ image =>
    image.layOut.andThen fun size image => image.close size) image := by
  refine (resolveLinks_repeats wellFormed).andThen (fun _ middle done => ?_) fun _ middle done => ?_
  · have alike := image.resolveLinks_adjusts.alike
    rw [done] at alike
    exact repeats_from_storeFirstGlobal (alike.sections.wellFormed wellFormed)
  · obtain ⟨linked, resolved, rfl⟩ := resolveLinks_eq_ok_iff.mp done
    have still : ({ image with sections := linked } : Image).sections.Resolved := wellFormed.resolved resolved
    refine resolveLinks_of_sameView still ?_
    refine Outcome.andThen_keeps (storeFirstGlobal_sameView (fun _ _ => rfl) _) fun _ state _ here => ?_
    refine Outcome.andThen_keeps (here.trans (state.layOut_sameView fun _ _ _ => rfl))
      fun size state _ here => ?_
    exact here.trans (state.close_sameView size)

-- The checks look at nothing that is stored.
theorem repeats_stages (wellFormed : image.sections.WellFormed) : Outcome.Repeats (fun image =>
    Outcome.andThen (image.sections.validate, image) fun _ image =>
    image.resolveLinks.andThen fun _ image =>
    image.storeFirstGlobal.andThen fun _ image =>
    image.layOut.andThen fun size image => image.close size) image := by
  refine Outcome.Repeats.andThen rfl (fun _ middle done => ?_) fun _ middle done => ?_
  · obtain ⟨-, rfl⟩ := Prod.mk.inj done
    exact repeats_from_resolveLinks wellFormed
  · obtain ⟨valid, rfl⟩ := Prod.mk.inj done
    refine Prod.ext ((Alike.sections ?_).validate.trans valid) rfl
    refine Outcome.andThen_keeps image.resolveLinks_adjusts.alike fun _ state _ here => ?_
    refine Outcome.andThen_keeps (here.trans state.storeFirstGlobal_adjusts.alike) fun _ state _ here => ?_
    refine Outcome.andThen_keeps (here.trans state.layOut_adjusts.alike) fun size state _ here => ?_
    exact here.trans (state.close_alike size)

/-- Finalizing again after a failure fails in the same way and changes nothing. -/
theorem finalize_again_of_failed (wellFormed : image.sections.WellFormed) {e : Error}
    (failed : image.finalize = (.error e, new)) : new.finalize = (.error e, new) := by
  have opened : new.reopen = new := by
    rw [reopen, ← finalSize_of_failed failed]
  have repeats : Outcome.Repeats _ image.reopen := repeats_stages wellFormed
  rw [finalize, opened]
  exact repeats.of_done failed

end Image

end Elf64
