import Elf64.Proofs.Serialization
import Elf64.Proofs.Twins

/-! The layout is the least one that keeps the order of the sections.

The position behind the sections that are placed goes through the table from the front (`contentsEnd`), and
every section lies at the least multiple of its alignment from there on (`Run.minimal_layout`). Rounding up is
exact in natural numbers; with a mask it comes to the same in a word of 64 bits, as long as the alignment
is a power of two and nothing overflows (`maskUp_eq`). -/

set_option autoImplicit false

namespace Elf64

/-! ## Rounding up -/

/-- The offset is the first multiple of the alignment that is not below a position. Alignments of zero and
one do not constrain it. -/
structure LeastMultiple (alignment position offset : Nat) : Prop where
  aligned : max 1 alignment ∣ offset
  le : position ≤ offset
  least : ∀ other, max 1 alignment ∣ other → position ≤ other → offset ≤ other

theorem leastMultiple_alignUp (position alignment : Nat) :
    LeastMultiple alignment position (alignUp position alignment) where
  aligned := by
    unfold alignUp
    split
    · next small => simp [Nat.max_eq_left small]
    · next large =>
      rw [Nat.max_eq_right (Nat.le_of_not_le large)]
      exact Nat.dvd_mul_left alignment _
  le := le_alignUp position alignment
  least := by
    intro other aligned le
    unfold alignUp
    split
    · exact le
    · next large =>
      rw [Nat.max_eq_right (Nat.le_of_not_le large)] at aligned
      obtain ⟨count, rfl⟩ := aligned
      -- The quotient is at most the count, since one more would need a whole alignment more.
      have quotient : (position + (alignment - 1)) / alignment ≤ count := by
        refine Nat.lt_succ_iff.mp ((Nat.div_lt_iff_lt_mul (by omega)).mpr ?_)
        rw [Nat.succ_mul, Nat.mul_comm]
        omega
      rw [Nat.mul_comm]
      exact Nat.mul_le_mul_left alignment quotient

/-- Rounding up with a mask, which is good for alignments that are powers of two. -/
def maskUp (position alignment : UInt64) : UInt64 :=
  if alignment ≤ 1 then position else (position + (alignment - 1)) &&& ~~~(alignment - 1)

theorem testBit_mask {alignment : Nat} (small : alignment - 1 < UInt64.size) (i : Nat) :
    (UInt64.size - 1 - (alignment - 1)).testBit i = (decide (i < 64) && !(alignment - 1).testBit i) := by
  rw [Nat.sub_sub, Nat.add_comm 1]
  exact @Nat.testBit_two_pow_sub_succ _ 64 small i

-- The mask drops the low bits of a number.
theorem and_mask {n alignment : Nat} (small : n < UInt64.size) (bound : alignment ≤ UInt64.size)
    (power : alignment.isPowerOfTwo) :
    n &&& (UInt64.size - 1 - (alignment - 1)) = n / alignment * alignment := by
  have low : alignment - 1 < UInt64.size := Nat.lt_of_le_of_lt (Nat.sub_le_sub_right bound 1) (by decide)
  obtain ⟨exponent, rfl⟩ := power
  apply Nat.eq_of_testBit_eq
  intro i
  have none : 64 ≤ i → n.testBit i = false := fun high =>
    Nat.testBit_lt_two_pow (Nat.lt_of_lt_of_le small (Nat.pow_le_pow_right Nat.two_pos high))
  rw [Nat.testBit_and, testBit_mask low, Nat.testBit_two_pow_sub_one, ← Nat.shiftRight_eq_div_pow,
    ← Nat.shiftLeft_eq, Nat.testBit_shiftLeft, Nat.testBit_shiftRight]
  by_cases kept : exponent ≤ i
  · rw [Nat.add_sub_cancel' kept]
    by_cases inside : i < 64
    · simp [kept, inside]
    · simp [none (Nat.le_of_not_lt inside)]
  · simp [kept, Nat.lt_of_not_le kept]

theorem maskUp_eq {position : Nat} {alignment : UInt64}
    (power : 1 < alignment.toNat → alignment.toNat.isPowerOfTwo)
    (fits : 1 < alignment.toNat → position + (alignment.toNat - 1) < offsetBound) :
    maskUp (.ofNat position) alignment = .ofNat (alignUp position alignment.toNat) := by
  unfold maskUp alignUp
  simp only [UInt64.le_iff_toNat_le, UInt64.reduceToNat]
  split
  · rfl
  · next large =>
    have above : 1 < alignment.toNat := Nat.lt_of_not_le large
    have room : position + (alignment.toNat - 1) < UInt64.size := fits above
    have one : (alignment - 1).toNat = alignment.toNat - 1 :=
      UInt64.toNat_sub_of_le _ _ (UInt64.le_iff_toNat_le.mpr (Nat.le_of_lt above))
    -- Nothing wraps in the sum, so that only the mask is left to be looked at.
    have sum : (UInt64.ofNat position + (alignment - 1)).toNat = position + (alignment.toNat - 1) := by
      rw [UInt64.toNat_add, one, UInt64.toNat_ofNat_of_lt' (Nat.lt_of_le_of_lt (Nat.le_add_right _ _) room)]
      exact Nat.mod_eq_of_lt room
    apply UInt64.toNat.inj
    rw [UInt64.toNat_and, UInt64.toNat_not, sum, one,
      and_mask room (Nat.le_of_lt alignment.toNat_lt) (power above)]
    exact (UInt64.toNat_ofNat_of_lt' (Nat.lt_of_le_of_lt (Nat.div_mul_le_self _ _) room)).symm

/-! ## The cursor -/

/-- Where the contents of sections end that start at the cursor, as their headers say. -/
def contentsEnd (cursor : Nat) (headers : List SectionHeader) : Nat :=
  headers.foldl (fun cursor header =>
    if header.occupiesFile then header.offset.toNat + header.size.toNat else cursor) cursor

section

variable {sizeOf : Section → Nat} {cursor last : Nat} {entries first rest : List Section} {entry : Section}

theorem SectionHeader.contentsEnd_of_place {header : SectionHeader} {size cursor next : Nat}
    (fixed : header.place size cursor = (.ok next, header)) (rest : List SectionHeader) :
    contentsEnd cursor (header :: rest) = contentsEnd next rest := by
  have place := of_place_self fixed
  rw [contentsEnd, List.foldl_cons]
  split at place
  · next occupies =>
    obtain ⟨-, size, rfl⟩ := place
    rw [if_pos occupies, size]
    rfl
  · next vacant =>
    rw [if_neg vacant, place]
    rfl

theorem Placed.contentsEnd (placed : Placed sizeOf last cursor entries) :
    contentsEnd cursor (entries.map Section.header) = last := by
  induction placed with
  | nil => rfl
  | cons fixed behind ih =>
    rw [List.map_cons, SectionHeader.contentsEnd_of_place fixed]
    exact ih

theorem Placed.le (placed : Placed sizeOf last cursor entries) : cursor ≤ last := by
  induction placed with
  | nil => exact Nat.le_refl _
  | cons fixed behind ih =>
    have place := SectionHeader.of_place_self fixed
    split at place <;> omega

-- The cursor is in the middle of a list where the part before it ends.
theorem Placed.of_append (placed : Placed sizeOf last cursor (first ++ rest)) :
    ∃ middle, Placed sizeOf middle cursor first ∧ Placed sizeOf last middle rest := by
  induction first generalizing cursor with
  | nil => exact ⟨cursor, .nil, placed⟩
  | cons entry first ih =>
    obtain _ | ⟨fixed, behind⟩ := placed
    obtain ⟨middle, before, after⟩ := ih behind
    exact ⟨middle, .cons fixed before, after⟩

/-- Every section is placed where the contents of those before it end. -/
theorem Placed.place_at (placed : Placed sizeOf last cursor entries) {i : Nat}
    (here : entries[i]? = some entry) :
    let middle := Elf64.contentsEnd cursor ((entries.take i).map Section.header)
    middle ≤ last ∧ ∃ next, entry.header.place (sizeOf entry) middle = (.ok next, entry.header) := by
  obtain ⟨inside, rfl⟩ := List.getElem?_eq_some_iff.mp here
  rw [← List.take_append_drop i entries, List.drop_eq_getElem_cons inside] at placed
  obtain ⟨middle, before, after⟩ := placed.of_append
  rw [before.contentsEnd]
  refine ⟨after.le, ?_⟩
  obtain _ | ⟨fixed, -⟩ := after
  exact ⟨_, fixed⟩

theorem Placed.inside (placed : Placed sizeOf last cursor entries) (member : entry ∈ entries)
    (occupies : entry.header.occupiesFile) : cursor ≤ entry.header.offset.toNat ∧
      entry.header.offset.toNat + entry.header.size.toNat ≤ last := by
  induction placed with
  | nil => contradiction
  | @cons cursor next first rest fixed behind ih =>
    have place := SectionHeader.of_place_self fixed
    rcases List.mem_cons.mp member with rfl | later
    · rw [if_pos occupies] at place
      have end_le := behind.le
      omega
    · have bounds := ih later
      split at place <;> omega

theorem Placed.pairwise (placed : Placed sizeOf last cursor entries) :
    entries.Pairwise fun a b => a.header.occupiesFile → b.header.occupiesFile →
      a.header.offset.toNat + a.header.size.toNat ≤ b.header.offset.toNat := by
  induction placed with
  | nil => exact .nil
  | @cons cursor next first rest fixed behind ih =>
    refine List.pairwise_cons.mpr ⟨fun later member present occupies => ?_, ih⟩
    have place := SectionHeader.of_place_self fixed
    rw [if_pos present] at place
    have bounds := behind.inside member occupies
    omega

end

/-! ## The layout of a run -/

-- The alignments of headers that pass their checks are those that a mask is good for.
theorem SectionHeader.power_of_validate {header : SectionHeader} (valid : header.validate = .ok ())
    (large : 1 < header.addralign.toNat) : header.addralign.toNat.isPowerOfTwo := by
  unfold validate at valid
  cases typed : header.type.check with
  | error e => simp [typed, bind, Except.bind] at valid
  | ok done =>
    simp only [typed, bind, Except.bind, checkAlignment] at valid
    rw [if_neg (Nat.not_le_of_lt large)] at valid
    by_contra other
    rw [if_pos other] at valid
    contradiction

-- No offset wraps, whether the section occupies the file or not.
theorem SectionHeader.offset_of_place {header : SectionHeader} {size cursor next : Nat}
    (fixed : header.place size cursor = (.ok next, header)) (inside : cursor < offsetBound) :
    header.offset.toNat = alignUp cursor header.addralign.toNat := by
  have stored : header.offset = .ofNat (alignUp cursor header.addralign.toNat) :=
    congrArg Prod.fst (span_of_place fixed)
  have fits := (place_eq_ok_iff.mp fixed).1
  have below : alignUp cursor header.addralign.toNat < offsetBound := by
    have bound := alignUp_le cursor header.addralign.toNat
    by_cases large : 1 < header.addralign.toNat
    · exact Nat.lt_of_le_of_lt bound (fits large)
    · omega
  rw [congrArg UInt64.toNat stored]
  exact UInt64.toNat_ofNat_of_lt' below

namespace Image

variable {image : Image} {size i : Nat} {header : SectionHeader}

/-- Where the contents of the sections in front of an index end. -/
def cursorAt (image : Image) (i : Nat) : Nat :=
  contentsEnd (64 + 64 * image.sections.size) (image.sections.headers.take i)

-- The null header does not move the cursor.
theorem cursorAt_succ (image : Image) (i : Nat) : image.cursorAt (i + 1) =
    contentsEnd image.contentsStart ((image.sections.added.toList.take i).map Section.header) := by
  rw [cursorAt, SectionTable.headers, List.take_succ_cons, ← List.map_take, ← contentsStart_eq]
  rfl

theorem Settled.cursorAt_size (settled : image.Settled size) : image.cursorAt image.sections.size = size := by
  rw [SectionTable.size, cursorAt_succ, ← Array.length_toList, List.take_length]
  exact settled.placed.contentsEnd

theorem entry_at (here : image.sections.get? (i + 1) = some header) :
    ∃ entry, image.sections.added.toList[i]? = some entry ∧ entry.header = header := by
  obtain ⟨entry, found, same⟩ := Option.map_eq_some_iff.mp here
  exact ⟨entry, by rwa [Array.getElem?_toList], same⟩

theorem Settled.offset_eq (settled : image.Settled size)
    (here : image.sections.get? (i + 1) = some header) :
    header.offset.toNat = alignUp (image.cursorAt (i + 1)) header.addralign.toNat ∧
      header.offset = maskUp (.ofNat (image.cursorAt (i + 1))) header.addralign := by
  obtain ⟨entry, found, rfl⟩ := entry_at here
  obtain ⟨le, next, fixed⟩ := settled.placed.place_at found
  rw [← cursorAt_succ] at le fixed
  have below : image.cursorAt (i + 1) < offsetBound :=
    Nat.lt_of_le_of_lt le (Nat.lt_trans settled.bounded (by decide))
  have valid := SectionTable.validate_eq_ok_iff_get?.mp settled.valid _ _ here
  refine ⟨SectionHeader.offset_of_place fixed below, ?_⟩
  rw [maskUp_eq (SectionHeader.power_of_validate valid) (SectionHeader.place_eq_ok_iff.mp fixed).1]
  exact congrArg Prod.fst (SectionHeader.span_of_place fixed)

-- The null header occupies no part of the file, so that only the sections behind it count.
theorem Settled.pairwise (settled : image.Settled size) :
    image.sections.headers.Pairwise fun first second =>
      first.occupiesFile → second.occupiesFile →
        first.offset.toNat + first.size.toNat ≤ second.offset.toNat := by
  refine List.pairwise_cons.mpr ⟨fun header member present => absurd present (by decide), ?_⟩
  exact List.pairwise_map.mpr settled.placed.pairwise

theorem Settled.header_inside (settled : image.Settled size) (member : header ∈ image.sections.headers)
    (occupies : header.occupiesFile) : 64 + 64 * image.sections.size ≤ header.offset.toNat ∧
      header.offset.toNat + header.size.toNat ≤ size := by
  rcases List.mem_cons.mp member with rfl | member
  · exact absurd occupies (by decide)
  · obtain ⟨entry, found, rfl⟩ := List.mem_map.mp member
    rw [← contentsStart_eq]
    exact settled.placed.inside found occupies

-- Finalizing stores a size only where there are bytes.
theorem size_of_vacant (image : Image) (here : image.finalize.2.sections.get? i = some header)
    (vacant : ¬ header.occupiesFile) :
    ∃ before, image.sections.get? i = some before ∧ header.size = before.size := by
  have kept := image.finalize_twins.sections.given i
  rw [here] at kept
  obtain ⟨before, found, same⟩ := Option.map_eq_some_iff.mp kept.symm
  exact ⟨before, found, (SectionTable.given_eq_iff.mp same.symm).2.1 vacant⟩

end Image

namespace Run

/-- Every section lies as far in front as its alignment and the sections before it allow, and the file
ends behind the last of them. -/
structure LaidOut (run : Run) (next : Image) : Prop where
  offset : ∀ i header, next.sections.get? (i + 1) = some header →
    LeastMultiple header.addralign.toNat (next.cursorAt (i + 1)) header.offset.toNat ∧
      header.offset = maskUp (.ofNat (next.cursorAt (i + 1))) header.addralign
  size : ∀ i header, next.sections.get? (i + 1) = some header → header.occupiesFile →
    ∃ name given, run.sections[i]? = some (name, given) ∧ header.size.toNat =
      if name = symtabName then 24 * run.image.symbols.size
      else if name = strtabName then run.image.strings.encode.length
      else given.length
  vacant : ∀ i header, next.sections.get? i = some header → ¬ header.occupiesFile →
    ∃ before, run.image.sections.get? i = some before ∧ header.size = before.size
  ordered : next.sections.headers.Pairwise fun first second =>
    first.occupiesFile → second.occupiesFile →
      first.offset.toNat + first.size.toNat ≤ second.offset.toNat
  inside : ∀ header ∈ next.sections.headers, header.occupiesFile →
    64 + 64 * next.sections.size ≤ header.offset.toNat ∧
      header.offset.toNat + header.size.toNat ≤ next.cursorAt next.sections.size
  finalSize : next.finalSize = some (next.cursorAt next.sections.size)

variable {run : Run} {next : Image}

theorem length_contents (run : Run) (name : String) (given : Bytes) : (run.contents name given).length =
    if name = symtabName then 24 * run.image.symbols.size
    else if name = strtabName then run.image.strings.encode.length
    else given.length := by
  unfold contents
  split
  · rw [SymbolTable.length_encode, SymbolTable.encodedSize, Symbol.recordSize, Nat.mul_comm]
  · split <;> rfl

theorem size_of_occupied (done : run.image.finalize = (.ok (), next)) {i : Nat} {header : SectionHeader}
    (here : next.sections.get? (i + 1) = some header) (occupies : header.occupiesFile) :
    ∃ name given, run.sections[i]? = some (name, given) ∧
      header.size.toNat = (run.contents name given).length := by
  obtain ⟨size, settled⟩ := Image.settled_of_finalize run.wellFormed.sections done
  have alike := Image.alike_of_finalize done
  have strings : next.strings.WellFormed := alike.strings ▸ run.wellFormed.strings
  obtain ⟨entry, found, rfl⟩ := Image.entry_at here
  refine ⟨entry.name, entry.contents, ?_, ?_⟩
  · rw [← run.listing, ← alike.sections.listing, SectionTable.listing, List.getElem?_map, found]
    rfl
  · rw [settled.size_eq strings (List.mem_of_getElem? found) occupies, Image.contents, alike.symbols,
      alike.strings]
    rfl

theorem minimal_layout (run : Run) (done : run.image.finalize = (.ok (), next)) : run.LaidOut next := by
  obtain ⟨size, settled⟩ := Image.settled_of_finalize run.wellFormed.sections done
  obtain rfl := settled.cursorAt_size
  exact {
    offset := by
      intro i header here
      obtain ⟨offset, masked⟩ := settled.offset_eq here
      rw [offset]
      exact ⟨leastMultiple_alignUp _ _, masked⟩
    size := by
      intro i header here occupies
      obtain ⟨name, given, listed, size⟩ := size_of_occupied done here occupies
      exact ⟨name, given, listed, size.trans (run.length_contents name given)⟩
    vacant := by
      obtain rfl : run.image.finalize.2 = next := congrArg Prod.snd done
      exact fun _ _ here vacant => run.image.size_of_vacant here vacant
    ordered := settled.pairwise
    inside := fun _ member occupies => settled.header_inside member occupies
    finalSize := settled.finalSize }

/-- A section without contents, one that has a size and no bytes in the file, and one behind it. -/
def sparse : Run where
  edits := [
    .addSection ".text" { type := .progBits, size := 16, addralign := 16 } [],
    .addSection ".bss" { type := .noBits, size := 64, addralign := 4096 } [],
    .addSection ".data" { type := .progBits, addralign := 4 } [1, 2, 3, 4]]

theorem sparse_minimal_layout : ∃ next, sparse.image.finalize = (.ok (), next) ∧ next.finalSize = some 516 ∧
    sparse.LaidOut next := by
  have done : sparse.image.finalize.1 = .ok () := by decide +kernel
  have finalSize : sparse.image.finalize.2.finalSize = some 516 := by decide +kernel
  exact ⟨_, Prod.ext done rfl, finalSize, sparse.minimal_layout (Prod.ext done rfl)⟩

end Run

end Elf64
