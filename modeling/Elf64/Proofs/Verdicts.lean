import Elf64.Proofs.ExactLayout
import Elf64.Proofs.Links

/-! Why finalizing fails, and that it is exact if it does not.

Every stage of finalizing has a condition, and the first one that does not hold decides about the error
(`Run.Verdict`). The conditions are about the changes that were made and about sums of natural numbers; that
they all hold means that no field of a header is too small for the number in it (`Run.Exact`). -/

set_option autoImplicit false

namespace Elf64

/-! ## Errors of the stages -/

-- Of the items that are refused the first one answers.
theorem forM_eq_error {α : Type} {check : α → Except Error Unit} {items : List α} {e : Error}
    (failed : items.forM check = .error e) : ∃ (i : Nat) (item : α),
      items[i]? = some item ∧ check item = .error e ∧
        ∀ j < i, ∀ other, items[j]? = some other → check other = .ok () := by
  induction items with
  | nil => contradiction
  | cons item rest ih =>
    rcases bind_eq_error failed with refused | ⟨done, passed, later⟩
    · exact ⟨0, item, rfl, refused, by simp⟩
    · obtain ⟨i, found, here, refused, first⟩ := ih later
      refine ⟨i + 1, found, here, refused, fun j before other there => ?_⟩
      cases j with
      | zero =>
        obtain rfl := Option.some.inj there
        exact passed
      | succ j => exact first j (Nat.lt_of_succ_lt_succ before) other there

namespace SectionTable

variable {table : SectionTable} {e : Error}

theorem validate_eq_error (failed : table.validate = .error e) :
    ∃ i header, table.get? i = some header ∧ header.validate = .error e ∧
      ∀ j < i, ∀ other, table.get? j = some other → other.validate = .ok () := by
  simp only [get?_eq]
  exact forM_eq_error failed

theorem applyLinks_eq_error {links : List (Nat × String)} (failed : (applyLinks links table).1 = .error e) :
    ∃ link ∈ links, table.indexOf? link.2 = none ∧ e = .unresolvedLink link.2 := by
  induction links generalizing table with
  | nil => contradiction
  | cons link rest ih =>
    rw [applyLinks] at failed
    split at failed
    · next missing => exact ⟨link, List.mem_cons_self, missing, (Except.error.inj failed).symm⟩
    · obtain ⟨other, later, missing, same⟩ := ih failed
      refine ⟨other, List.mem_cons_of_mem _ later, ?_, same⟩
      rwa [indexOf?, index_modify] at missing

end SectionTable

theorem SectionHeader.kind_of_validate {header : SectionHeader} {e : Error}
    (refused : header.validate = .error e) : e.kind = .invalidRawValue ∨ e.kind = .invalidAlignment := by
  rcases bind_eq_error refused with mistyped | ⟨-, -, misaligned⟩
  · unfold SectionType.check at mistyped
    split at mistyped
    · contradiction
    · obtain rfl := Except.error.inj mistyped
      exact .inl rfl
  · unfold checkAlignment at misaligned
    dsimp only at misaligned
    split at misaligned
    · contradiction
    · split at misaligned
      · obtain rfl := Except.error.inj misaligned
        exact .inr rfl
      · split at misaligned
        · obtain rfl := Except.error.inj misaligned
          exact .inr rfl
        · contradiction

theorem FixedInt.check_count_of_large {n : Nat} {width : Width} (large : width.patterns ≤ n) :
    (count n width).check = .error (.outOfRange (count n width)) := by
  rw [check, if_neg]
  rw [fits_count_iff]
  exact Nat.not_lt_of_le large

namespace Image

variable {image : Image} {symtab strtab : Nat}

theorem storeFirstGlobal_answer (atSymtab : image.sections.indexOf? symtabName = some symtab) :
    image.storeFirstGlobal.1 = (FixedInt.count image.symbols.firstGlobal .word).check := by
  rw [storeFirstGlobal, SectionTable.require_eq_ok_iff.mpr atSymtab, Outcome.andThen_ok]
  cases (FixedInt.count image.symbols.firstGlobal .word).check <;> rfl

theorem close_answer (atStrtab : image.sections.indexOf? strtabName = some strtab) (size : Nat) :
    (image.close size).1 = (do
      image.header.fileType.check
      image.header.machine.check
      (FixedInt.count image.sections.size .half).check
      (FixedInt.count strtab .half).check) := by
  rw [close, SectionTable.require_eq_ok_iff.mpr atStrtab, Outcome.andThen_ok, FileHeader.close]
  cases image.header.fileType.check <;> cases image.header.machine.check <;>
    cases (FixedInt.count image.sections.size .half).check <;>
    cases (FixedInt.count strtab .half).check <;> rfl

end Image

namespace Run

/-! ## Conditions -/

/-- Every header passes its checks. Each of the conditions that follow includes the ones before it. -/
structure Validated (run : Run) : Prop where
  valid : ∀ i header, run.image.sections.get? i = some header → header.validate = .ok ()

structure Linked (run : Run) : Prop extends run.Validated where
  targets : ∀ source target, run.linkOf? source = some target →
    (run.image.sections.indexOf? target).isSome

structure Counted (run : Run) : Prop extends run.Linked where
  firstGlobal : run.image.symbols.firstGlobal < 0x100000000

structure Fitting (run : Run) : Prop extends run.Counted where
  size : run.image.exactSize ≤ 0x7fffffffffffffff

/-- Nothing is in the way of finalizing. -/
structure Ready (run : Run) : Prop extends run.Fitting where
  fileType : run.image.header.fileType.check = .ok ()
  machine : run.image.header.machine.check = .ok ()
  count : run.image.sections.size ≤ 0xffff

/-- What finalizing answers, with the first condition that does not hold. -/
inductive Verdict (run : Run) : Except Error Unit → Prop where
  | invalidHeader (i : Nat) (header : SectionHeader) (e : Error)
      (here : run.image.sections.get? i = some header) (refused : header.validate = .error e)
      (first : ∀ j < i, ∀ other, run.image.sections.get? j = some other → other.validate = .ok ())
      (kind : e.kind = .invalidRawValue ∨ e.kind = .invalidAlignment) : Verdict run (.error e)
  | missingTarget (before : run.Validated) (source target : String)
      (linked : run.linkOf? source = some target)
      (missing : run.image.sections.indexOf? target = none) :
      Verdict run (.error (.unresolvedLink target))
  | manyLocals (before : run.Linked) (many : 0x100000000 ≤ run.image.symbols.firstGlobal) :
      Verdict run (.error (.outOfRange (.count run.image.symbols.firstGlobal .word)))
  | tooLarge (before : run.Counted) (position : Nat) (large : 0x7fffffffffffffff < run.image.exactSize) :
      Verdict run (.error (.tooLarge position))
  | badFileType (before : run.Fitting) (refused : run.image.header.fileType.check ≠ .ok ()) :
      Verdict run (.error (.misnamedCode .fileType run.image.header.fileType.label))
  | badMachine (before : run.Fitting) (fileType : run.image.header.fileType.check = .ok ())
      (refused : run.image.header.machine.check ≠ .ok ()) :
      Verdict run (.error (.misnamedCode .machine run.image.header.machine.label))
  | manySections (before : run.Fitting) (fileType : run.image.header.fileType.check = .ok ())
      (machine : run.image.header.machine.check = .ok ()) (many : 0xffff < run.image.sections.size) :
      Verdict run (.error (.outOfRange (.count run.image.sections.size .half)))
  | ready (ready : run.Ready) : Verdict run (.ok ())

variable {run : Run} {answer : Except Error Unit}

-- A condition that does not hold is none of those that make an image ready.
theorem Verdict.eq_ok (verdict : run.Verdict answer) (ready : run.Ready) : answer = .ok () := by
  cases verdict with
  | invalidHeader i header e here refused =>
    have valid := ready.valid i header here
    rw [refused] at valid
    contradiction
  | missingTarget before source target linked missing =>
    have found := ready.targets source target linked
    rw [missing] at found
    contradiction
  | manyLocals before many => exact absurd ready.firstGlobal (Nat.not_lt_of_le many)
  | tooLarge before position large => exact absurd ready.size (Nat.not_le_of_lt large)
  | badFileType before refused => exact absurd ready.fileType refused
  | badMachine before fileType refused => exact absurd ready.machine refused
  | manySections before fileType machine many => exact absurd ready.count (Nat.not_le_of_lt many)
  | ready => rfl

/-! ## The stages, from the last one on -/

theorem verdict_close (before : run.Fitting) (size : Nat) : run.Verdict (run.image.close size).1 := by
  rw [Image.close_answer run.wellFormed.indexOf?_strtab]
  by_cases fileType : run.image.header.fileType.check = .ok ()
  · by_cases machine : run.image.header.machine.check = .ok ()
    · rw [fileType, machine]
      by_cases few : run.image.sections.size < 0x10000
      · -- The index of the string table fits wherever the count of the sections does.
        rw [(FixedInt.check_count_iff _ _).mpr few]
        exact .ready { before with fileType, machine, count := Nat.le_of_lt_succ few }
      · rw [FixedInt.check_count_of_large (Nat.le_of_not_lt few)]
        exact .manySections before fileType machine (Nat.lt_of_not_le fun le => few (Nat.lt_succ_of_le le))
    · have refused := machine
      rw [Machine.check_eq_ok_iff] at refused
      rw [fileType, Machine.check, if_neg refused]
      exact .badMachine before fileType machine
  · have refused := fileType
    rw [FileType.check_eq_ok_iff] at refused
    rw [FileType.check, if_neg refused]
    exact .badFileType before fileType

theorem verdict_layOut (before : run.Counted) :
    run.Verdict (run.image.layOut.1 >>= fun size => (run.image.close size).1) := by
  have valid := SectionTable.validate_eq_ok_iff_get?.mpr before.valid
  rcases Image.layOut_total valid with ⟨small, laid⟩ | ⟨large, position, failed⟩
  · rw [laid]
    exact verdict_close ⟨before, Nat.le_pred_of_lt small⟩ _
  · rw [failed]
    exact .tooLarge before position (Nat.lt_of_lt_of_le (by decide) large)

theorem verdict_storeFirstGlobal (before : run.Linked) : run.Verdict (do
    run.image.storeFirstGlobal.1
    let size ← run.image.layOut.1
    (run.image.close size).1) := by
  rw [Image.storeFirstGlobal_answer run.wellFormed.indexOf?_symtab]
  by_cases few : run.image.symbols.firstGlobal < 0x100000000
  · rw [(FixedInt.check_count_iff _ _).mpr few]
    exact verdict_layOut ⟨before, few⟩
  · have many := Nat.le_of_not_lt few
    rw [FixedInt.check_count_of_large many]
    exact .manyLocals before many

theorem verdict_resolveLinks (before : run.Validated) : run.Verdict (do
    run.image.resolveLinks.1
    run.image.storeFirstGlobal.1
    let size ← run.image.layOut.1
    (run.image.close size).1) := by
  cases linked : run.image.resolveLinks.1 with
  | error e =>
    obtain ⟨link, member, missing, rfl⟩ := SectionTable.applyLinks_eq_error linked
    obtain ⟨source, last⟩ := run.linkOf?_of_mem member
    exact .missingTarget before source link.2 last missing
  | ok done =>
    refine verdict_storeFirstGlobal ⟨before, fun source target last => ?_⟩
    obtain ⟨i, -, member⟩ := run.linkOf?_eq_some_iff.mp last
    exact Image.resolveLinks_answer_eq_ok_iff.mp linked _ member

theorem verdict_finalize (run : Run) : run.Verdict run.image.finalize.1 := by
  rw [Image.finalize_answer]
  cases valid : run.image.sections.validate with
  | error e =>
    obtain ⟨i, header, here, refused, first⟩ := SectionTable.validate_eq_error valid
    exact .invalidHeader i header e here refused first (SectionHeader.kind_of_validate refused)
  | ok done => exact verdict_resolveLinks ⟨SectionTable.validate_eq_ok_iff_get?.mp valid⟩

/-- Every number that finalizing stores is the one that it stands for, and not what is left of it. -/
structure Exact (run : Run) (next : Image) : Prop where
  offset : ∀ i header, next.sections.get? (i + 1) = some header →
    header.offset.toNat = alignUp (run.image.exactEnd i) header.addralign.toNat
  size : ∀ i header, next.sections.get? (i + 1) = some header → header.occupiesFile →
    ∃ name given, run.sections[i]? = some (name, given) ∧
      header.size.toNat = (run.contents name given).length
  link : ∀ source target, run.linkOf? source = some target → ∃ header,
    next.sections.find? source = some header ∧ next.sections.indexOf? target = some header.link.toNat
  info : ∃ header, next.sections.find? symtabName = some header ∧
    header.info.toNat = run.image.symbols.firstGlobal
  sectionCount : next.header.sectionCount.toNat = run.image.sections.size
  nameTableIndex : next.sections.indexOf? strtabName = some next.header.nameTableIndex.toNat
  sectionTableOffset : next.header.sectionTableOffset.toNat = 64
  finalSize : next.finalSize = some run.image.exactSize

variable {next : Image}

theorem exact_of_finalize (done : run.image.finalize = (.ok (), next)) : run.Exact next := by
  obtain ⟨size, settled⟩ := Image.settled_of_finalize run.wellFormed.sections done
  have alike := Image.alike_of_finalize done
  have wellFormed := alike.sections.wellFormed run.wellFormed.sections
  have count := settled.counts.1
  exact {
    offset := by
      intro i header here
      rw [(settled.offset_eq here).1, settled.cursorAt_eq, alike.exactEnd]
    size := fun _ _ here occupies => size_of_occupied done here occupies
    link := by
      intro source target last
      obtain ⟨i, found, member⟩ := run.linkOf?_eq_some_iff.mp last
      rw [← alike.sections.links] at member
      rw [← alike.sections.indexOf?] at found
      have small : next.sections.size ≤ 0x100000000 := by
        have fits := next.header.sectionCount.toNat_lt
        omega
      exact settled.resolved.find?_link wellFormed small found member
    info := by
      have found := (alike.sections.indexOf? symtabName).trans run.wellFormed.indexOf?_symtab
      obtain ⟨header, here⟩ := SectionTable.get?_of_nameOf? ((wellFormed.indexed symtabName 1).mp found)
      refine ⟨header, (SectionTable.find?_of_indexOf? found).trans here, ?_⟩
      rw [settled.info found here, alike.symbols]
    sectionCount := count.trans alike.sections.size
    nameTableIndex := settled.counts.2
    sectionTableOffset := by
      rw [settled.tableOffset]
      rfl
    finalSize := by
      rw [← alike.exactSize, settled.exactSize]
      exact settled.finalSize }

/-- Finalizing succeeds exactly when nothing is in the way of it, and is exact then. Otherwise it names the
first thing that is. -/
theorem verdict (run : Run) : run.Verdict run.image.finalize.1 ∧
    (run.image.finalize.1 = .ok () ↔ run.Ready) ∧
    ∀ next, run.image.finalize = (.ok (), next) → run.Exact next := by
  have answered := run.verdict_finalize
  refine ⟨answered, ⟨fun done => ?_, answered.eq_ok⟩, fun next => exact_of_finalize⟩
  rw [done] at answered
  cases answered with
  | ready ready => exact ready

/-- A section without bytes in the file that lies behind the last byte that a file can have. -/
def lofty : Run where
  edits := [.addSection ".bss" { type := .noBits, addralign := 0x8000000000000000 } []]

theorem lofty_verdict : lofty.image.finalize.1 = .ok () ∧ lofty.Ready ∧
    lofty.Exact lofty.image.finalize.2 ∧
    (lofty.image.finalize.2.sections.find? ".bss").map SectionHeader.offset = some 0x8000000000000000 :=
  have done : lofty.image.finalize.1 = .ok () := by decide +kernel
  ⟨done, (verdict lofty).2.1.mp done, (verdict lofty).2.2 _ (Prod.ext done rfl), by decide +kernel⟩

end Run

end Elf64
