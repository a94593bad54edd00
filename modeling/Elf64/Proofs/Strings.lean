import Elf64.Proofs.Records

/-! String tables as bytes.

Every text lies in the encoded table at its offset, and the first zero from there on is the one
that closes it (`StringTable.WellFormed.encode_at`). Adding a text keeps all of this, and adds one
entry behind the others. -/

set_option autoImplicit false

namespace Elf64.StringTable

/-- The size is that of the encoded table, and only the ends of texts are zeros. -/
structure WellFormed (table : StringTable) : Prop where
  size : table.size = table.encode.length
  closed : ∀ text ∈ table.texts, 0 ∉ utf8 text

theorem length_room (text : String) : (utf8 text ++ [0]).length = room text := by
  simp [utf8, room]

@[simp] theorem texts_push (table : StringTable) (text : String) :
    (table.push text).texts = table.texts ++ [text] := by
  simp [push, texts]

@[simp] theorem size_push (table : StringTable) (text : String) :
    (table.push text).size = table.size + room text := rfl

theorem encode_push (table : StringTable) (text : String) :
    (table.push text).encode = table.encode ++ (utf8 text ++ [0]) := by
  simp [encode]

theorem entriesFrom_append (offset : Nat) (first rest : List String) :
    entriesFrom offset (first ++ rest) = entriesFrom offset first ++
      entriesFrom (offset + (first.flatMap fun text => utf8 text ++ [0]).length) rest := by
  induction first generalizing offset with
  | nil => rfl
  | cons text first ih =>
    rw [List.cons_append, entriesFrom, ih, List.flatMap_cons, List.length_append, length_room, entriesFrom,
      List.cons_append, Nat.add_assoc]

-- A text is stored where the table ended before.
theorem entries_push (table : StringTable) (text : String) :
    (table.push text).entries = table.entries ++ [(table.encode.length, text)] := by
  rw [entries, texts_push, entriesFrom_append, Nat.zero_add]
  rfl

theorem entriesFrom_split {offset start : Nat} {texts : List String} {text : String}
    (entry : (start, text) ∈ entriesFrom offset texts) :
    ∃ before after : Bytes, (texts.flatMap fun text => utf8 text ++ [0]) =
      before ++ (utf8 text ++ 0 :: after) ∧ start = offset + before.length := by
  induction texts generalizing offset with
  | nil => simp [entriesFrom] at entry
  | cons first rest ih =>
    rcases List.mem_cons.mp entry with same | later
    · -- Nothing lies before the first text.
      obtain ⟨rfl, rfl⟩ := Prod.mk.inj same
      exact ⟨[], _, by simp; rfl, by simp⟩
    · obtain ⟨before, after, split, position⟩ := ih later
      refine ⟨utf8 first ++ [0] ++ before, after, by simp [split], ?_⟩
      rw [position, List.length_append, length_room, Nat.add_assoc]

theorem mem_texts_of_mem_entriesFrom {offset start : Nat} {texts : List String} {text : String}
    (entry : (start, text) ∈ entriesFrom offset texts) : text ∈ texts := by
  induction texts generalizing offset with
  | nil => simp [entriesFrom] at entry
  | cons first rest ih =>
    rcases List.mem_cons.mp entry with same | later
    · exact (Prod.mk.inj same).2 ▸ List.mem_cons_self
    · exact List.mem_cons_of_mem _ (ih later)

-- Every text takes up a byte at least, so that no two of them are stored at the same offset.
theorem find?_entriesFrom {offset start : Nat} {texts : List String} {text : String}
    (entry : (start, text) ∈ entriesFrom offset texts) :
    (entriesFrom offset texts).find? (fun found => found.1 == start) = some (start, text) := by
  induction texts generalizing offset with
  | nil => simp [entriesFrom] at entry
  | cons first rest ih =>
    rcases List.mem_cons.mp entry with same | later
    · obtain ⟨rfl, rfl⟩ := Prod.mk.inj same
      simp [entriesFrom]
    · obtain ⟨before, after, -, position⟩ := entriesFrom_split later
      have apart : offset ≠ start := by
        rw [position, room]
        omega
      rw [entriesFrom, List.find?_cons_of_neg (by simpa using apart), ih later]

/-- Looking up an offset finds the text that is stored there. -/
theorem get?_eq_some_iff {table : StringTable} {offset : Nat} {text : String} :
    table.get? offset = some text ↔ (offset, text) ∈ table.entries := by
  constructor
  · intro found
    obtain ⟨entry, here, rfl⟩ := Option.map_eq_some_iff.mp found
    obtain rfl : entry.1 = offset := by simpa using List.find?_some here
    exact List.mem_of_find?_eq_some here
  · intro entry
    rw [get?, entries, find?_entriesFrom entry]
    rfl

/-- The bytes of the table at the offset of an entry: the text, without a zero in it, and a zero. -/
theorem WellFormed.encode_at {table : StringTable} (wellFormed : table.WellFormed) {offset : Nat}
    {text : String} (entry : (offset, text) ∈ table.entries) :
    0 ∉ utf8 text ∧ ∃ before after : Bytes,
      table.encode = before ++ (utf8 text ++ 0 :: after) ∧ before.length = offset := by
  refine ⟨wellFormed.closed text (mem_texts_of_mem_entriesFrom entry), ?_⟩
  obtain ⟨before, after, split, position⟩ := entriesFrom_split entry
  exact ⟨before, after, split, by simpa using position.symm⟩

theorem wellFormed_empty : ({} : StringTable).WellFormed where
  size := by decide
  closed := by decide

theorem check_eq_ok {table : StringTable} {text : String} (checked : table.check text = .ok ()) :
    0 ∉ utf8 text ∧ table.size < 0x100000000 := by
  unfold check at checked
  split at checked
  · contradiction
  · next closed => exact ⟨closed, (FixedInt.check_count_iff table.size .word).mp checked⟩

theorem WellFormed.push {table : StringTable} (wellFormed : table.WellFormed) {text : String}
    (closed : 0 ∉ utf8 text) : (table.push text).WellFormed where
  size := by
    rw [size_push, wellFormed.size, encode_push, List.length_append, length_room]
  closed := by
    intro other member
    rw [texts_push, List.mem_append, List.mem_singleton] at member
    rcases member with old | rfl
    · exact wellFormed.closed other old
    · exact closed

theorem entries_subset_push (table : StringTable) (text : String) :
    table.entries ⊆ (table.push text).entries := by
  rw [entries_push]
  exact List.subset_append_left _ _

-- The offset that a text gets fits a word, and it is where the text is stored.
theorem WellFormed.stored {table : StringTable} (wellFormed : table.WellFormed) {text : String}
    (checked : table.check text = .ok ()) :
    ((UInt32.ofNat table.size).toNat, text) ∈ (table.push text).entries := by
  have small := (check_eq_ok checked).2
  have offset : (UInt32.ofNat table.size).toNat = table.encode.length := by
    rw [← wellFormed.size]
    exact UInt32.toNat_ofNat_of_lt' small
  rw [offset, entries_push]
  exact List.mem_append_right _ List.mem_cons_self

/-! ## Writing the table -/

theorem encode_records (order : ByteOrder) (table : StringTable) :
    table.records.flatMap (Record.encode order) = table.encode := by
  have zero : order.write 1 0 = [0] := by cases order <;> rfl
  have terminator : (Field.number (.byte 0)).encode order = [0] := zero ▸ Field.encode_byte order 0
  simp [records, encode, List.flatMap_map, terminator]

theorem records_fit (table : StringTable) : ∀ record ∈ table.records, record.Fits := by
  intro record member
  obtain ⟨text, -, rfl⟩ := List.mem_map.mp member
  simp [Record.Fits, Field.Fits, FixedInt.fits_byte]

end Elf64.StringTable
