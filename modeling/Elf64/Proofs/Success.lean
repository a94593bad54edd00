import Mathlib.Algebra.Ring.Nat
import Elf64.Proofs.Finalize

/-! Whether finalizing succeeds.

No stage looks at a field that an earlier one stores, so that each of them answers as it would on the
image before all of them (`Image.finalize_answer`), and images that differ only in what finalizing
stores get the same answer (`Image.Alike.finalize_answer`). -/

set_option autoImplicit false

namespace Elf64

theorem bind_eq_ok {ε α β : Type} {first : Except ε α} {next : α → Except ε β} {b : β}
    (done : first >>= next = .ok b) : ∃ a, first = .ok a ∧ next a = .ok b := by
  cases first with
  | error e => contradiction
  | ok a => exact ⟨a, rfl, done⟩

theorem bind_eq_error {ε α β : Type} {first : Except ε α} {next : α → Except ε β} {e : ε}
    (failed : first >>= next = .error e) :
    first = .error e ∨ ∃ a, first = .ok a ∧ next a = .error e := by
  cases first with
  | error e' =>
    cases failed
    exact .inl rfl
  | ok a => exact .inr ⟨a, rfl, failed⟩

theorem Outcome.fst_andThen {σ α β : Type} (first : Outcome σ α) (next : α → σ → Outcome σ β) :
    (first.andThen next).1 = first.1.bind fun a => (next a first.2).1 := by
  obtain ⟨answer, state⟩ := first
  cases answer <;> rfl

/-! ## Links -/

namespace SectionTable

variable {old new table : SectionTable}

theorem applyLinks_answer (links : List (Nat × String)) (index : new.index = old.index) :
    (applyLinks links new).1 = (applyLinks links old).1 := by
  induction links generalizing old new with
  | nil => rfl
  | cons link rest ih =>
    have same : new.indexOf? link.2 = old.indexOf? link.2 := by simp only [indexOf?, index]
    simp only [applyLinks, same]
    split
    · rfl
    · apply ih
      rw [index_modify, index_modify, index]

-- The links are applied unless a target is missing.
theorem applyLinks_eq_ok_iff {links : List (Nat × String)} :
    (applyLinks links table).1 = .ok () ↔ ∀ link ∈ links, (table.indexOf? link.2).isSome := by
  induction links generalizing table with
  | nil => simp [applyLinks]
  | cons link rest ih =>
    simp only [applyLinks, List.forall_mem_cons]
    cases found : table.indexOf? link.2 with
    | none => simp
    | some target => simp [ih, indexOf?]

end SectionTable

/-! ## The layout -/

theorem SectionHeader.place_answer (header : SectionHeader) (size cursor : Nat) :
    (header.place size cursor).1 =
      let alignment := header.addralign.toNat
      let offset := alignUp cursor alignment
      if 1 < alignment ∧ offsetBound ≤ cursor + (alignment - 1) then .error (.tooLarge cursor)
      else if header.occupiesFile then
        if offset + size < offsetBound then .ok (offset + size) else .error (.tooLarge offset)
      else .ok cursor := by
  simp only [place, occupiesFile_move]
  split
  · rfl
  · split
    · split <;> rfl
    · rfl

theorem SectionHeader.place_outline (header : SectionHeader) (size cursor : Nat) :
    (header.outline.place size cursor).1 = (header.place size cursor).1 := by
  rw [place_answer, place_answer]
  rfl

-- Neither the sections that are placed already nor what placing stores makes a difference.
theorem placeAll_answer {sizeOf : Section → Nat} (stable : ∀ entry, sizeOf entry.outline = sizeOf entry)
    {old new : List Section} (same : new.map Section.outline = old.map Section.outline) (cursor : Nat)
    (before after : Array Section) :
    (placeAll sizeOf after cursor new).1 = (placeAll sizeOf before cursor old).1 := by
  induction new generalizing old cursor before after with
  | nil =>
    obtain rfl : old = [] := List.map_eq_nil_iff.mp same.symm
    rfl
  | cons entry rest ih =>
    obtain ⟨other, others, rfl, here, later⟩ := List.map_eq_cons_iff.mp same.symm
    have room : sizeOf entry = sizeOf other := by rw [← stable, ← here, stable]
    have header : entry.header.outline = other.header.outline := congrArg Section.header here.symm
    have placed : (entry.header.place (sizeOf entry) cursor).1 =
        (other.header.place (sizeOf other) cursor).1 := by
      rw [← SectionHeader.place_outline, header, room, SectionHeader.place_outline]
    rw [placeAll, placeAll]
    rcases first : entry.header.place (sizeOf entry) cursor with ⟨e | next, moved⟩ <;>
      rcases second : other.header.place (sizeOf other) cursor with ⟨e' | next', moved'⟩ <;>
      simp only [first, second, reduceCtorEq, Except.error.injEq, Except.ok.injEq] at placed
    · simp only [placed]
    · subst placed
      exact ih later.symm next _ _

theorem alignUp_le (position alignment : Nat) : alignUp position alignment ≤ position + (alignment - 1) := by
  unfold alignUp
  split
  · exact Nat.le_add_right position _
  · exact Nat.div_mul_le_self _ alignment

/-- The bytes that sections take up at most, those before each of them for its alignment included. -/
def roomFor (sizeOf : Section → Nat) (entries : List Section) : Nat :=
  (entries.map fun entry => entry.header.addralign.toNat - 1 + sizeOf entry).sum

theorem roomFor_cons (sizeOf : Section → Nat) (entry : Section) (rest : List Section) :
    roomFor sizeOf (entry :: rest) =
      entry.header.addralign.toNat - 1 + sizeOf entry + roomFor sizeOf rest := rfl

theorem roomFor_le {sizeOf : Section → Nat} {entries : List Section} {bound : Nat}
    (each : ∀ entry ∈ entries, entry.header.addralign.toNat - 1 + sizeOf entry ≤ bound) :
    roomFor sizeOf entries ≤ entries.length * bound := by
  induction entries with
  | nil => exact Nat.zero_le _
  | cons entry rest ih =>
    obtain ⟨here, behind⟩ := List.forall_mem_cons.mp each
    rw [roomFor_cons, List.length_cons, Nat.succ_mul, Nat.add_comm]
    exact Nat.add_le_add (ih behind) here

theorem SectionHeader.place_fits (header : SectionHeader) {size cursor : Nat}
    (room : cursor + (header.addralign.toNat - 1 + size) < offsetBound) :
    ∃ next ≤ cursor + (header.addralign.toNat - 1 + size), (header.place size cursor).1 = .ok next := by
  have bound := alignUp_le cursor header.addralign.toNat
  rw [place_answer]
  dsimp only
  rw [if_neg (by omega)]
  split
  · exact ⟨alignUp cursor header.addralign.toNat + size, by omega, if_pos (by omega)⟩
  · exact ⟨cursor, by omega, rfl⟩

/-- Sections can be placed if offsets reach far enough for all of them. -/
theorem placeAll_fits {sizeOf : Section → Nat} {entries : List Section} {cursor : Nat}
    (room : cursor + roomFor sizeOf entries < offsetBound) (placed : Array Section) :
    ∃ last ≤ cursor + roomFor sizeOf entries, (placeAll sizeOf placed cursor entries).1 = .ok last := by
  induction entries generalizing cursor placed with
  | nil => exact ⟨cursor, Nat.le_refl _, rfl⟩
  | cons entry rest ih =>
    rw [roomFor_cons] at room ⊢
    have here : cursor + (entry.header.addralign.toNat - 1 + sizeOf entry) < offsetBound := by omega
    obtain ⟨next, bound, moved⟩ := entry.header.place_fits here
    have behind : next + roomFor sizeOf rest < offsetBound := by omega
    rcases outcome : entry.header.place (sizeOf entry) cursor with ⟨answer, header⟩
    rw [outcome] at moved
    obtain rfl : answer = .ok next := moved
    obtain ⟨last, beyond, done⟩ := ih behind (placed.push { entry with header })
    refine ⟨last, by omega, ?_⟩
    rw [placeAll, outcome]
    exact done

-- Type and machine are all that closing looks at.
theorem FileHeader.close_answer {old new : FileHeader} (same : new.outline = old.outline)
    (count index : Nat) :
    ((new.close count index).bind fun _ => .ok ()) = (old.close count index).bind fun _ => .ok () := by
  obtain ⟨fileType, machine, -⟩ := outline_eq_iff.mp same
  simp only [close, fileType, machine]
  cases old.fileType.check <;> cases old.machine.check <;> cases (FixedInt.count count .half).check <;>
    cases (FixedInt.count index .half).check <;> rfl

namespace Image

variable {image old new : Image}

/-! ## The answers of the stages -/

theorem Alike.resolveLinks_answer (alike : old.Alike new) :
    new.resolveLinks.1 = old.resolveLinks.1 := by
  show new.sections.resolveLinks.1 = old.sections.resolveLinks.1
  rw [SectionTable.resolveLinks, alike.sections.links]
  exact SectionTable.applyLinks_answer _ alike.sections.index

theorem Alike.require (alike : old.Alike new) (name : String) :
    new.sections.require name = old.sections.require name := by
  simp only [SectionTable.require, alike.sections.indexOf?]

theorem Alike.storeFirstGlobal_answer (alike : old.Alike new) :
    new.storeFirstGlobal.1 = old.storeFirstGlobal.1 := by
  simp only [storeFirstGlobal, Outcome.fst_andThen, alike.require, alike.symbols]

theorem Alike.layOut_answer (alike : old.Alike new) : new.layOut.1 = old.layOut.1 := by
  have stable (entry : Section) : old.contentsSize entry.outline = old.contentsSize entry := rfl
  have placed := placeAll_answer stable alike.sections.outline old.contentsStart #[] #[]
  simp only [layOut, Outcome.fst_andThen, alike.contentsSize, alike.contentsStart, placed]
  congr 1
  funext size
  split <;> rfl

theorem Alike.close_answer (alike : old.Alike new) (size : Nat) :
    (new.close size).1 = (old.close size).1 := by
  simp only [close, Outcome.fst_andThen, alike.require, alike.sections.size]
  congr 1
  funext index
  refine FileHeader.close_answer ?_ _ index
  exact alike.header

/-- Every stage answers as it would on the image before all of them. -/
theorem finalize_answer (image : Image) : image.finalize.1 = (do
    image.sections.validate
    image.resolveLinks.1
    image.storeFirstGlobal.1
    let size ← image.layOut.1
    (image.close size).1) := by
  -- The stages change no more than headers, each of them the image that the one before leaves.
  have opened : image.Alike image.reopen := ⟨rfl, .refl _, rfl, rfl⟩
  have linked := opened.trans image.reopen.resolveLinks_adjusts.alike
  have stored := linked.trans image.reopen.resolveLinks.2.storeFirstGlobal_adjusts.alike
  have placed := stored.trans image.reopen.resolveLinks.2.storeFirstGlobal.2.layOut_adjusts.alike
  simp only [finalize, Outcome.fst_andThen, opened.resolveLinks_answer, linked.storeFirstGlobal_answer,
    stored.layOut_answer, placed.close_answer]
  rfl

/-- Images that differ only in what finalizing stores get the same answer. -/
theorem Alike.finalize_answer (alike : old.Alike new) : new.finalize.1 = old.finalize.1 := by
  rw [Image.finalize_answer, Image.finalize_answer, alike.sections.validate, alike.resolveLinks_answer,
    alike.storeFirstGlobal_answer, alike.layOut_answer]
  simp only [alike.close_answer]

/-- What has to hold of an image for finalizing it to succeed. -/
structure CanFinalize (image : Image) : Prop where
  valid : image.sections.validate = .ok ()
  targets : ∀ link ∈ image.sections.links, (image.sections.indexOf? link.2).isSome
  firstGlobal : image.symbols.firstGlobal < 0x100000000
  placed : ∃ size < memoryBound,
    (placeAll image.contentsSize #[] image.contentsStart image.sections.added.toList).1 = .ok size
  fileType : image.header.fileType.check = .ok ()
  machine : image.header.machine.check = .ok ()
  count : image.sections.size < 0x10000

theorem resolveLinks_answer_eq_ok_iff : image.resolveLinks.1 = .ok () ↔
    ∀ link ∈ image.sections.links, (image.sections.indexOf? link.2).isSome :=
  SectionTable.applyLinks_eq_ok_iff

theorem storeFirstGlobal_answer_eq_ok_iff {symtab : Nat}
    (atSymtab : image.sections.indexOf? symtabName = some symtab) :
    image.storeFirstGlobal.1 = .ok () ↔ image.symbols.firstGlobal < 0x100000000 := by
  have fits := FixedInt.check_count_iff image.symbols.firstGlobal .word
  rw [show 0x100000000 = Width.word.patterns from rfl, ← fits, storeFirstGlobal,
    SectionTable.require_eq_ok_iff.mpr atSymtab]
  cases (FixedInt.count image.symbols.firstGlobal .word).check <;> simp

theorem layOut_answer_eq_ok_iff {size : Nat} : image.layOut.1 = .ok size ↔
    (placeAll image.contentsSize #[] image.contentsStart image.sections.added.toList).1 = .ok size ∧
      size < memoryBound := by
  simp only [layOut]
  rcases placeAll image.contentsSize #[] image.contentsStart image.sections.added.toList with ⟨e | last, added⟩
  · simp
  · simp only [Outcome.andThen_ok, Except.ok.injEq]
    split
    · next bounded =>
      constructor
      · rintro ⟨⟩
        exact ⟨rfl, bounded⟩
      · rintro ⟨rfl, -⟩
        rfl
    · next unbounded =>
      constructor
      · rintro ⟨⟩
      · rintro ⟨rfl, bounded⟩
        exact absurd bounded unbounded

theorem close_answer_eq_ok_iff {strtab size : Nat}
    (atStrtab : image.sections.indexOf? strtabName = some strtab) (inside : strtab < image.sections.size) :
    (image.close size).1 = .ok () ↔ image.header.fileType.check = .ok () ∧
      image.header.machine.check = .ok () ∧ image.sections.size < 0x10000 := by
  constructor
  · intro done
    obtain ⟨index, header, _, closed, _⟩ := close_eq_ok_iff.mp (Prod.ext done rfl)
    obtain ⟨fileType, machine, count, -⟩ := FileHeader.close_eq_ok_iff.mp closed
    exact ⟨fileType, machine, count⟩
  · rintro ⟨fileType, machine, count⟩
    have closed : FileHeader.close { image.header with sectionTableOffset := .ofNat FileHeader.recordSize }
        image.sections.size strtab = .ok _ :=
      FileHeader.close_eq_ok_iff.mpr ⟨fileType, machine, count, Nat.lt_trans inside count, rfl⟩
    rw [close_eq_ok_iff.mpr ⟨strtab, _, atStrtab, closed, rfl⟩]

/-- Finalizing succeeds under these conditions and no others. -/
theorem finalize_answer_eq_ok_iff {symtab strtab : Nat}
    (atSymtab : image.sections.indexOf? symtabName = some symtab)
    (atStrtab : image.sections.indexOf? strtabName = some strtab) (inside : strtab < image.sections.size) :
    image.finalize.1 = .ok () ↔ image.CanFinalize := by
  rw [finalize_answer]
  constructor
  · intro done
    obtain ⟨_, valid, done⟩ := bind_eq_ok done
    obtain ⟨_, links, done⟩ := bind_eq_ok done
    obtain ⟨_, first, done⟩ := bind_eq_ok done
    obtain ⟨size, layout, done⟩ := bind_eq_ok done
    obtain ⟨placed, bounded⟩ := layOut_answer_eq_ok_iff.mp layout
    obtain ⟨fileType, machine, count⟩ := (close_answer_eq_ok_iff atStrtab inside).mp done
    exact {
      valid
      targets := resolveLinks_answer_eq_ok_iff.mp links
      firstGlobal := (storeFirstGlobal_answer_eq_ok_iff atSymtab).mp first
      placed := ⟨size, bounded, placed⟩
      fileType
      machine
      count }
  · intro can
    obtain ⟨size, bounded, placed⟩ := can.placed
    rw [can.valid, resolveLinks_answer_eq_ok_iff.mpr can.targets,
      (storeFirstGlobal_answer_eq_ok_iff atSymtab).mpr can.firstGlobal,
      layOut_answer_eq_ok_iff.mpr ⟨placed, bounded⟩]
    exact (close_answer_eq_ok_iff atStrtab inside).mpr ⟨can.fileType, can.machine, can.count⟩

end Image

end Elf64
