import Mathlib.Data.List.Nodup
import Elf64.Proofs.Additions
import Elf64.Proofs.Success

/-! How many sections an image can have.

Sections are added under a list of names, which the string table must have room for (`Addable`). What is
known of the image then (`Image.Filled`) is enough to finalize it if the file header can count its
sections, and only then (`Run.finalize_adding_iff`). There are enough numbered names for that. -/

set_option autoImplicit false

namespace Elf64

/-- Adds a section without contents under each of the names. -/
def Run.adding (names : List String) : Run where
  edits := names.map fun name => .addSection name { type := .progBits } []

theorem Run.adding_append (names : List String) (name : String) :
    adding (names ++ [name]) = (adding names).extend (.addSection name { type := .progBits } []) := by
  simp [adding, extend]

/-- Names that a new image has room for, at most `room` bytes for each. -/
structure Addable (room : Nat) (names : List String) : Prop where
  distinct : ([symtabName, strtabName] ++ names).Nodup
  closed : ∀ name ∈ names, 0 ∉ utf8 name
  short : ∀ name ∈ names, StringTable.room name ≤ room
  few : 17 + names.length * room ≤ 0x100000000

theorem Addable.of_append {room : Nat} {first rest : List String} (addable : Addable room (first ++ rest)) :
    Addable room first where
  distinct := by
    have distinct := addable.distinct
    rw [← List.append_assoc] at distinct
    exact distinct.sublist (List.sublist_append_left _ rest)
  closed name member := addable.closed name (List.mem_append_left rest member)
  short name member := addable.short name (List.mem_append_left rest member)
  few := by
    have few := addable.few
    rw [List.length_append, Nat.add_mul] at few
    omega

namespace Image

/-- A new image to which sections of these names have been added. -/
structure Filled (room : Nat) (names : List String) (image : Image) : Prop where
  header : image.header = (ofConfig {}).header
  listing : image.sections.listing = ([symtabName, strtabName] ++ names).map fun name => (name, [])
  headers : ∀ entry ∈ image.sections.added.toList,
    entry.header.validate = .ok () ∧ entry.header.addralign.toNat ≤ 8
  links : image.sections.links = [(1, strtabName)]
  strings : image.strings.size ≤ 17 + names.length * room
  symbols : image.symbols = {}

theorem filled_start (room : Nat) : (ofConfig {}).Filled room [] where
  header := rfl
  listing := rfl
  headers := by decide
  links := rfl
  strings := by
    rw [List.length_nil, Nat.zero_mul]
    decide
  symbols := rfl

theorem Filled.push {room : Nat} {names : List String} {image : Image} (filled : image.Filled room names)
    {name : String} (short : StringTable.room name ≤ room) :
    (image.pushSection name { type := .progBits } []).Filled room (names ++ [name]) where
  header := filled.header
  listing := by
    have listing := filled.listing
    simp only [SectionTable.listing] at listing
    simp [pushSection, SectionTable.push, SectionTable.listing, listing]
  headers := by
    intro entry member
    simp only [pushSection, SectionTable.push, Array.toList_push, List.mem_append,
      List.mem_singleton] at member
    rcases member with old | rfl
    · exact filled.headers entry old
    · exact ⟨rfl, Nat.zero_le 8⟩
  links := filled.links
  strings := by
    have before := filled.strings
    rw [List.length_append, Nat.add_mul]
    simp only [pushSection, StringTable.size_push, List.length_singleton]
    omega
  symbols := filled.symbols

variable {image : Image} {room : Nat} {names : List String}

theorem Filled.size (filled : image.Filled room names) : image.sections.size = names.length + 3 := by
  have count := congrArg List.length filled.listing
  simpa [SectionTable.listing, SectionTable.size] using count

theorem Filled.addSection (filled : image.Filled room names) (wellFormed : image.WellFormed) {name : String}
    (addable : Addable room (names ++ [name])) :
    image.addSection name { type := .progBits } [] =
      (.ok image.sections.size, image.pushSection name { type := .progBits } []) := by
  have short := addable.short name (by simp)
  have few := addable.few
  have distinct := addable.distinct
  rw [List.length_append, Nat.add_mul, List.length_singleton] at few
  have stored : image.strings.size < 0x100000000 := by
    have before := filled.strings
    have some : 0 < StringTable.room name := Nat.succ_pos _
    omega
  have unused : image.sections.indexOf? name = none := by
    rw [wellFormed.sections.indexOf?_eq_none_iff, filled.listing, List.map_map]
    rw [← List.append_assoc] at distinct
    simpa using fun member => (List.nodup_append.mp distinct).2.2 name member name (by simp) rfl
  exact addSection_of_check (SectionTable.check_eq_ok_iff.mpr ⟨unused, rfl⟩)
    (StringTable.check_eq_ok_iff.mpr ⟨addable.closed name (by simp), stored⟩) []

theorem Filled.contentsSize_le (filled : image.Filled room names) {entry : Section}
    (member : entry ∈ image.sections.added.toList) :
    image.contentsSize entry ≤ Symbol.recordSize + image.strings.size := by
  have given : entry.contents = [] := by
    have listed : (entry.name, entry.contents) ∈ image.sections.listing :=
      List.mem_map.mpr ⟨entry, member, rfl⟩
    rw [filled.listing] at listed
    obtain ⟨name, -, same⟩ := List.mem_map.mp listed
    exact (Prod.mk.inj same).2.symm
  unfold contentsSize
  split
  · rw [filled.symbols]
    exact Nat.le_add_right Symbol.recordSize _
  · split
    · exact Nat.le_add_left _ _
    · rw [given]
      exact Nat.zero_le _

-- Every section is taken to be as large as the largest can be, which still leaves room by far.
theorem Filled.roomFor_lt (filled : image.Filled room names) (few : names.length + 3 < 0x10000)
    (short : 17 + names.length * room ≤ 0x100000000) :
    image.contentsStart + roomFor image.contentsSize image.sections.added.toList < memoryBound := by
  have each : ∀ entry ∈ image.sections.added.toList,
      entry.header.addralign.toNat - 1 + image.contentsSize entry ≤ 0x100000020 := by
    intro entry member
    have alignment := (filled.headers entry member).2
    have contents := filled.contentsSize_le member
    have strings := filled.strings
    simp only [Symbol.recordSize] at contents
    omega
  have rooms := roomFor_le each
  have count : image.sections.added.toList.length < 0x10000 := by
    have size := filled.size
    simp only [SectionTable.size, Array.length_toList] at size ⊢
    omega
  have total := Nat.mul_lt_mul_of_pos_right count (show 0 < 0x100000020 by decide)
  simp only [contentsStart, SectionTable.encodedSize, filled.size, FileHeader.recordSize,
    SectionHeader.recordSize, memoryBound]
  omega

theorem Filled.canFinalize_iff (filled : image.Filled room names) (wellFormed : image.WellFormed)
    (short : 17 + names.length * room ≤ 0x100000000) :
    image.CanFinalize ↔ names.length + 3 < 0x10000 := by
  refine ⟨fun can => filled.size ▸ can.count, fun few => ?_⟩
  exact {
    valid := by
      refine SectionTable.validate_eq_ok_iff.mpr fun header member => ?_
      rcases List.mem_cons.mp member with rfl | added
      · rfl
      · obtain ⟨entry, stored, rfl⟩ := List.mem_map.mp added
        exact (filled.headers entry stored).1
    targets := by
      rw [filled.links]
      intro link member
      obtain rfl := List.mem_singleton.mp member
      exact Option.isSome_of_eq_some ((wellFormed.sections.indexed strtabName 2).mpr wellFormed.strtab)
    firstGlobal := by
      rw [filled.symbols]
      decide
    placed := by
      have inside := filled.roomFor_lt few short
      obtain ⟨last, bound, placed⟩ := placeAll_fits (Nat.lt_trans inside (by decide)) #[]
      exact ⟨last, Nat.lt_of_le_of_lt bound inside, placed⟩
    fileType := by
      rw [filled.header]
      rfl
    machine := by
      rw [filled.header]
      rfl
    count := by
      rw [filled.size]
      exact few }

end Image

/-! ## Numbered names -/

theorem utf8_ofList {chars : List Char} (ascii : ∀ c ∈ chars, c.toNat < 128) :
    utf8 (String.ofList chars) = chars.map fun c => .ofNat c.toNat := by
  have single (c : Char) (member : c ∈ chars) : String.utf8EncodeChar c = [.ofNat c.toNat] := by
    have bound := ascii c member
    simp only [Char.toNat] at bound
    simp only [String.utf8EncodeChar, Char.toNat]
    rw [if_pos (by omega)]
  simp only [utf8, String.toByteArray_ofList, List.utf8Encode, List.data_toByteArray]
  rw [List.map_eq_flatMap]
  exact List.flatMap_congr single

def numbered (k : Nat) : String := "s" ++ toString k

theorem numbered_eq (k : Nat) : numbered k = String.ofList ('s' :: Nat.toDigits 10 k) := by
  rw [numbered, Nat.toString_eq_repr, Nat.repr]
  show String.ofList ['s'] ++ _ = _
  rw [← String.ofList_append]
  rfl

theorem numbered_injective : Function.Injective numbered := by
  intro a b same
  simp only [numbered_eq, String.ofList_inj, List.cons.injEq, true_and] at same
  have number := congrArg (fun digits => Nat.ofDigitChars 10 digits 0) same
  simpa using number

theorem numbered_ascii {k : Nat} {c : Char} (member : c ∈ 's' :: Nat.toDigits 10 k) :
    0 < c.toNat ∧ c.toNat < 128 := by
  rcases List.mem_cons.mp member with rfl | digit
  · decide
  · have digit := Nat.isDigit_of_mem_toDigits (by decide) (by decide) digit
    simp only [Char.isDigit, Bool.and_eq_true, decide_eq_true_eq, ge_iff_le, UInt32.le_iff_toNat_le] at digit
    exact ⟨Nat.lt_of_lt_of_le (by decide) digit.1, Nat.lt_of_le_of_lt digit.2 (by decide)⟩

theorem utf8_numbered (k : Nat) :
    utf8 (numbered k) = ('s' :: Nat.toDigits 10 k).map fun c => .ofNat c.toNat := by
  rw [numbered_eq]
  exact utf8_ofList fun c member => (numbered_ascii member).2

theorem room_numbered {k : Nat} (small : k < 100000) : StringTable.room (numbered k) ≤ 7 := by
  have digits : (Nat.toDigits 10 k).length ≤ 5 :=
    (Nat.length_toDigits_le_iff (by decide) (by decide)).mpr small
  rw [← StringTable.length_room, utf8_numbered]
  simp only [List.length_append, List.length_map, List.length_cons, List.length_nil]
  omega

theorem addable_numbered {count : Nat} (few : count ≤ 100000) :
    Addable 7 ((List.range count).map numbered) where
  distinct := by
    refine List.nodup_append.mpr ⟨by decide, List.nodup_range.map numbered_injective, ?_⟩
    -- The names of the two tables start with a period.
    intro table one name member same
    obtain ⟨k, -, rfl⟩ := List.mem_map.mp member
    have start : (utf8 table).head? = some 0x73 := by
      rw [same, utf8_numbered]
      rfl
    have period : ∀ table ∈ [symtabName, strtabName], (utf8 table).head? = some 0x2e := by decide
    rw [period table one] at start
    contradiction
  closed := by
    intro name member
    obtain ⟨k, -, rfl⟩ := List.mem_map.mp member
    rw [utf8_numbered, List.mem_map]
    rintro ⟨c, char, zero⟩
    obtain ⟨positive, ascii⟩ := numbered_ascii char
    have number : c.toNat % 256 = 0 := by simpa using congrArg UInt8.toNat zero
    omega
  short := by
    intro name member
    obtain ⟨k, inside, rfl⟩ := List.mem_map.mp member
    exact room_numbered (Nat.lt_of_lt_of_le (List.mem_range.mp inside) few)
  few := by
    rw [List.length_map, List.length_range]
    omega

namespace Run

variable {room : Nat} {names : List String}

theorem filled_adding (addable : Addable room names) : (adding names).image.Filled room names := by
  induction names using List.reverseRecOn with
  | nil => exact Image.filled_start room
  | append_singleton names name ih =>
    have filled := ih addable.of_append
    rw [adding_append, image_extend, Edit.apply, filled.addSection (adding names).wellFormed addable]
    exact filled.push (addable.short name (by simp))

theorem size_adding (addable : Addable room names) :
    (adding names).image.sections.size = names.length + 3 :=
  (filled_adding addable).size

/-- Sections can be added as long as there is room for their names, but only as many as the file header
can count can be finalized. -/
theorem finalize_adding_iff (addable : Addable room names) :
    (adding names).image.finalize.1 = .ok () ↔ names.length + 3 < 0x10000 := by
  have wellFormed := (adding names).wellFormed
  have atSymtab := (wellFormed.sections.indexed symtabName 1).mpr wellFormed.symtab
  have atStrtab := (wellFormed.sections.indexed strtabName 2).mpr wellFormed.strtab
  have inside := SectionTable.lt_size_of_nameOf? wellFormed.strtab
  rw [Image.finalize_answer_eq_ok_iff atSymtab atStrtab inside]
  exact (filled_adding addable).canFinalize_iff wellFormed addable.few

end Run

end Elf64
