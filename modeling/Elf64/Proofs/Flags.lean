import Elf64.Section.Flags

/-! Flags as sets of bits.

What an operation on flags does is told by the bits in its result. The named flags can share bits with each
other and can leave bits over; what is shown of flags, names and a number, still has every one of
their bits, and the number has none that a name stands for (`SectionFlags.shown`). -/

set_option autoImplicit false

namespace Elf64.SectionFlags

/-- The flags have the bit of this place. -/
instance : Membership Nat SectionFlags where
  mem a i := a.bits.toBitVec.getLsbD i

variable {a b : SectionFlags} {i : Nat} {bits : UInt64}

theorem mem_def : i ∈ a ↔ a.bits.toBitVec.getLsbD i = true := Iff.rfl

theorem ext_mem (same : ∀ i, i ∈ a ↔ i ∈ b) : a = b := by
  obtain ⟨a⟩ := a
  obtain ⟨b⟩ := b
  have equal : a.toBitVec = b.toBitVec :=
    BitVec.eq_of_getLsbD_eq fun i _ => Bool.eq_iff_iff.mpr (same i)
  rw [UInt64.toBitVec_inj.mp equal]

/-! ## Operations -/

@[simp] theorem not_mem_none : i ∉ ({} : SectionFlags) := by simp [mem_def]

@[simp] theorem mem_union : i ∈ a.union b ↔ i ∈ a ∨ i ∈ b := by simp [mem_def, union]

@[simp] theorem mem_inter : i ∈ a.inter b ↔ i ∈ a ∧ i ∈ b := by simp [mem_def, inter]

@[simp] theorem mem_symmDiff : i ∈ a.symmDiff b ↔ ¬ (i ∈ a ↔ i ∈ b) := by simp [mem_def, symmDiff]

@[simp] theorem mem_diff : i ∈ a.diff b ↔ i ∈ a ∧ i ∉ b := by
  simp only [mem_def, diff, UInt64.toBitVec_and, UInt64.toBitVec_not, BitVec.getLsbD_and, BitVec.getLsbD_not,
    Bool.and_eq_true, decide_eq_true_eq, Bool.not_eq_true', Bool.not_eq_true]
  -- A complement has the bits of the word only, and so have the first flags.
  exact and_congr_right fun member => and_iff_right (BitVec.lt_of_getLsbD member)

theorem isEmpty_iff : a.isEmpty ↔ ∀ i, i ∉ a := by
  rw [isEmpty, beq_iff_eq]
  constructor
  · intro zero i
    simp [mem_def, zero]
  · intro empty
    have same : a = {} := ext_mem fun i => by simp [empty i]
    rw [same]

theorem contains_iff : a.contains b ↔ ∀ i ∈ b, i ∈ a := by
  rw [contains, beq_iff_eq]
  constructor
  · intro same i member
    rw [← same, mem_inter] at member
    exact member.1
  · intro inside
    exact ext_mem fun i => mem_inter.trans (and_iff_right_of_imp (inside i))

theorem intersects_iff : a.intersects b ↔ ∃ i ∈ a, i ∈ b := by
  rw [intersects, Bool.not_eq_true', ← Bool.not_eq_true, isEmpty_iff]
  simp

/-! ## Named flags -/

theorem mem_foldl_union (entries : List (String × SectionFlags)) (a : SectionFlags) :
    i ∈ entries.foldl (fun flags entry => flags.union entry.2) a ↔ i ∈ a ∨ ∃ entry ∈ entries, i ∈ entry.2 := by
  induction entries generalizing a with
  | nil => simp
  | cons entry rest ih => simp [ih, or_assoc]

theorem mem_foldl_diff (entries : List (String × SectionFlags)) (a : SectionFlags) :
    i ∈ entries.foldl (fun flags entry => flags.diff entry.2) a ↔ i ∈ a ∧ ∀ entry ∈ entries, i ∉ entry.2 := by
  induction entries generalizing a with
  | nil => simp
  | cons entry rest ih => simp [ih, and_assoc]

theorem mem_all : i ∈ all ↔ ∃ entry ∈ named, i ∈ entry.2 := by
  simp [all, mem_foldl_union]

@[simp] theorem mem_truncate : i ∈ a.truncate ↔ i ∈ a ∧ i ∈ all := mem_inter

@[simp] theorem mem_complement : i ∈ a.complement ↔ i ∈ all ∧ i ∉ a := mem_diff

theorem isAll_iff : a.isAll ↔ ∀ i ∈ all, i ∈ a := contains_iff

/-- Bits are taken as flags only if each of them has a name. -/
theorem ofBits?_eq_some_iff : ofBits? bits = some a ↔ a.bits = bits ∧ ∀ i ∈ a, i ∈ all := by
  have whole : (⟨bits⟩ : SectionFlags).truncate.bits = bits ↔ ∀ i ∈ (⟨bits⟩ : SectionFlags), i ∈ all := by
    constructor
    · intro same i member
      have kept : i ∈ (⟨bits⟩ : SectionFlags).truncate := by rwa [mem_def, same]
      exact (mem_truncate.mp kept).2
    · intro inside
      have same : (⟨bits⟩ : SectionFlags).truncate = ⟨bits⟩ :=
        ext_mem fun i => mem_truncate.trans (and_iff_left_of_imp (inside i))
      rw [same]
  rw [ofBits?]
  split
  · next named =>
    constructor
    · rintro ⟨⟩
      exact ⟨rfl, whole.mp named⟩
    · rintro ⟨rfl, -⟩
      rfl
  · next unnamed =>
    refine iff_of_false nofun ?_
    rintro ⟨rfl, inside⟩
    exact unnamed (whole.mpr inside)

theorem mem_set {entry : String × SectionFlags} :
    entry ∈ a.set ↔ entry ∈ named ∧ ∀ i ∈ entry.2, i ∈ a := by
  rw [set, List.mem_filter, contains_iff]

theorem mem_rest : i ∈ a.rest ↔ i ∈ a ∧ ∀ entry ∈ a.set, i ∉ entry.2 := mem_foldl_diff a.set a

/-- The named flags that are shown and the bits that are left over make up the flags, and no bit is left over
that a name stands for. -/
theorem shown (a : SectionFlags) :
    a.set.foldl (fun flags entry => flags.union entry.2) a.rest = a ∧
      ∀ entry ∈ a.set, a.rest.intersects entry.2 = false := by
  constructor
  · refine ext_mem fun i => ?_
    rw [mem_foldl_union, mem_rest]
    constructor
    · rintro (⟨member, -⟩ | ⟨entry, set, member⟩)
      · exact member
      · exact (mem_set.mp set).2 i member
    · intro member
      by_cases named : ∃ entry ∈ a.set, i ∈ entry.2
      · exact .inr named
      · exact .inl ⟨member, fun entry set inside => named ⟨entry, set, inside⟩⟩
  · intro entry set
    rw [← Bool.not_eq_true, intersects_iff]
    rintro ⟨i, left, member⟩
    exact (mem_rest.mp left).2 entry set member

example : text ⟨0x10000007⟩ = "SectionFlags(WRITE | ALLOC | EXECINSTR | 0x10000000)" := by decide +kernel

end Elf64.SectionFlags
