import Mathlib.Algebra.Ring.Nat
import Elf64.Proofs.Acceptance
import Elf64.Proofs.Strings

/-! Looking up texts and offsets in a string table.

Every text ends before the next one starts (`StringTable.pairwise_entries`). So the offsets ascend, a
search by halving finds an offset (`binSearch_eq_some_iff`), and an offset that is not the start of a text
leads nowhere. All of this holds after any texts have been offered to the table, whether it has taken them
or not (`StringTable.exact_lookup`). -/

set_option autoImplicit false

namespace Elf64

/-! ## Search by halving -/

section Search

variable {α : Type} {items : Array α} {key : α → Nat} {item : α}

/-- Later items have greater keys. -/
def Ascending (key : α → Nat) (items : List α) : Prop := items.Pairwise fun a b => key a < key b

theorem Ascending.lt_iff (ascending : Ascending key items.toList) {i j : Nat} {a b : α}
    (first : items[i]? = some a) (second : items[j]? = some b) : key a < key b ↔ i < j := by
  obtain ⟨inside, rfl⟩ := Array.getElem?_eq_some_iff.mp first
  obtain ⟨inside', rfl⟩ := Array.getElem?_eq_some_iff.mp second
  rcases Nat.lt_trichotomy i j with before | rfl | after
  · exact iff_of_true (List.pairwise_iff_getElem.mp ascending i j inside inside' before) before
  · exact iff_of_false (Nat.lt_irrefl _) (Nat.lt_irrefl i)
  · have greater := List.pairwise_iff_getElem.mp ascending j i inside' inside after
    exact iff_of_false (Nat.lt_asymm greater) (Nat.lt_asymm after)

-- Each step of the search keeps the part of the range that can have the key.
theorem binSearchAux_eq_some_iff (ascending : Ascending key items.toList) (probe : α)
    (low : Fin (items.size + 1)) (high : Fin items.size) (ordered : low.val ≤ high.val) :
    items.binSearchAux (fun a b => key a < key b) id probe low high ordered = some item ↔
      ∃ i, low.val ≤ i ∧ i ≤ high.val ∧ items[i]? = some item ∧ key item = key probe := by
  fun_induction Array.binSearchAux (fun a b => decide (key a < key b)) id items probe low high ordered with
  | case1 low high ordered m a below inside _ ih =>
    have middle : items[m]? = some a := by simp [a]
    rw [ih]
    refine exists_congr fun i => and_congr_left fun ⟨_, here, same⟩ => ?_
    have above := (ascending.lt_iff middle here).mp (same ▸ of_decide_eq_true below)
    simp only
    omega
  | case2 low high ordered m a below outside =>
    have middle : items[m]? = some a := by simp [a]
    refine iff_of_false (by simp) fun ⟨i, _, _, here, same⟩ => ?_
    have above := (ascending.lt_iff middle here).mp (same ▸ of_decide_eq_true below)
    omega
  | case3 low high ordered m a _ above outside =>
    have middle : items[m]? = some a := by simp [a]
    refine iff_of_false (by simp) fun ⟨i, _, _, here, same⟩ => ?_
    have below := (ascending.lt_iff here middle).mp (same ▸ of_decide_eq_true above)
    omega
  | case4 low high ordered m a _ above inside _ ih =>
    have middle : items[m]? = some a := by simp [a]
    rw [ih]
    refine exists_congr fun i => and_congr_right fun _ => and_congr_left fun ⟨here, same⟩ => ?_
    have below := (ascending.lt_iff here middle).mp (same ▸ of_decide_eq_true above)
    simp only
    omega
  | case5 low high ordered m a notBelow notAbove =>
    have middle : items[m]? = some a := by simp [a]
    have found : key a = key probe := by simp at notBelow notAbove; omega
    constructor
    · intro same
      obtain rfl : a = item := Option.some.inj same
      exact ⟨m, by omega, by omega, middle, found⟩
    · rintro ⟨i, -, -, here, same⟩
      -- No two items have the same key.
      have equal : i = m := by
        have := ascending.lt_iff here middle
        have := ascending.lt_iff middle here
        omega
      exact middle.symm.trans (equal ▸ here)

/-- A search by halving finds an item by its key, if there is one. -/
theorem binSearch_eq_some_iff (ascending : Ascending key items.toList) (probe : α) :
    items.binSearch probe (fun a b => key a < key b) = some item ↔
      item ∈ items ∧ key item = key probe := by
  unfold Array.binSearch
  by_cases empty : items.size = 0
  · simp [Array.eq_empty_of_size_eq_zero empty]
  · rw [dif_pos (by omega), dif_pos (by split <;> omega), binSearchAux_eq_some_iff ascending,
      Array.mem_iff_getElem?, ← exists_and_right]
    refine exists_congr fun i => ⟨fun ⟨_, _, here⟩ => here, fun here => ⟨Nat.zero_le i, ?_, here⟩⟩
    obtain ⟨inside, -⟩ := Array.getElem?_eq_some_iff.mp here.1
    simp only
    split <;> omega

end Search

namespace StringTable

variable {table : StringTable} {offset : Nat} {text : String}

/-! ## Entries -/

theorem room_pos (text : String) : 0 < room text := Nat.succ_pos _

theorem map_snd_entriesFrom (offset : Nat) (texts : List String) :
    (entriesFrom offset texts).map Prod.snd = texts := by
  induction texts generalizing offset with
  | nil => rfl
  | cons first rest ih => rw [entriesFrom, List.map_cons, ih]

theorem le_of_mem_entriesFrom {start : Nat} {texts : List String} {entry : Nat × String}
    (member : entry ∈ entriesFrom start texts) : start ≤ entry.1 := by
  obtain ⟨before, after, -, position⟩ := entriesFrom_split member
  exact position ▸ Nat.le_add_right start before.length

-- A text and its zero lie in front of all later texts.
theorem pairwise_entriesFrom (offset : Nat) (texts : List String) :
    (entriesFrom offset texts).Pairwise fun a b => a.1 + room a.2 ≤ b.1 := by
  induction texts generalizing offset with
  | nil => exact .nil
  | cons first rest ih => exact .cons (fun _ later => le_of_mem_entriesFrom later) (ih _)

theorem pairwise_entries (table : StringTable) :
    table.entries.Pairwise fun a b => a.1 + room a.2 ≤ b.1 :=
  pairwise_entriesFrom 0 table.texts

theorem ascending_entries (table : StringTable) : Ascending Prod.fst table.entries := by
  refine table.pairwise_entries.imp fun {a b} apart => ?_
  have := room_pos a.2
  omega

-- The offset of a text adds up what the texts before it take up.
theorem offset_entriesFrom {start i : Nat} {texts : List String}
    (here : (entriesFrom start texts)[i]? = some (offset, text)) :
    offset = start + ((texts.take i).map room).sum := by
  induction texts generalizing start i with
  | nil => simp [entriesFrom] at here
  | cons first rest ih =>
    cases i with
    | zero =>
      obtain ⟨rfl, rfl⟩ := Prod.mk.inj (Option.some.inj here)
      simp
    | succ i => rw [ih here, List.take_succ_cons, List.map_cons, List.sum_cons, Nat.add_assoc]

theorem length_encode (table : StringTable) : table.encode.length = (table.texts.map room).sum := by
  rw [encode, List.length_flatMap]
  exact congrArg List.sum (List.map_congr_left fun text _ => length_room text)

theorem WellFormed.entry_le_size (wellFormed : table.WellFormed) (entry : (offset, text) ∈ table.entries) :
    offset + room text ≤ table.size := by
  obtain ⟨-, before, after, split, rfl⟩ := wellFormed.encode_at entry
  rw [wellFormed.size, split, ← length_room]
  simp only [List.length_append, List.length_cons, List.length_nil]
  omega

-- Of two entries one lies in front of the other.
theorem apart_of_mem {a b : Nat × String} (first : a ∈ table.entries) (second : b ∈ table.entries) :
    a = b ∨ a.1 + room a.2 ≤ b.1 ∨ b.1 + room b.2 ≤ a.1 := by
  have apart := List.pairwise_iff_getElem.mp table.pairwise_entries
  obtain ⟨i, inside, rfl⟩ := List.getElem_of_mem first
  obtain ⟨j, inside', rfl⟩ := List.getElem_of_mem second
  rcases Nat.lt_trichotomy i j with before | rfl | after
  · exact .inr (.inl (apart i j inside inside' before))
  · exact .inl rfl
  · exact .inr (.inr (apart j i inside' inside after))

/-! ## Look-ups -/

theorem mem_entries_zero (table : StringTable) : (0, "") ∈ table.entries := List.mem_cons_self

theorem get?_eq_binSearch (table : StringTable) (offset : Nat) : table.get? offset =
    (table.entries.toArray.binSearch (offset, "") fun a b => a.1 < b.1).map Prod.snd := by
  have sorted : Ascending Prod.fst table.entries.toArray.toList := table.ascending_entries
  apply Option.ext
  intro text
  rw [get?_eq_some_iff, Option.map_eq_some_iff]
  constructor
  · intro entry
    exact ⟨(offset, text), (binSearch_eq_some_iff sorted _).mpr ⟨by simpa using entry, rfl⟩, rfl⟩
  · rintro ⟨⟨start, _⟩, found, rfl⟩
    obtain ⟨member, rfl⟩ := (binSearch_eq_some_iff sorted _).mp found
    simpa using member

-- From the second byte of a text to the zero that closes it nothing is found.
theorem get?_eq_none_of_inside (entry : (offset, text) ∈ table.entries) {k : Nat} (positive : 0 < k)
    (inside : k < room text) : table.get? (offset + k) = none := by
  refine Option.eq_none_iff_forall_ne_some.mpr fun other found => ?_
  have := room_pos other
  rcases apart_of_mem entry (get?_eq_some_iff.mp found) with same | before | after
  · have := congrArg Prod.fst same
    simp only at this
    omega
  · simp only at before
    omega
  · simp only at after
    omega

theorem WellFormed.get?_eq_none_of_size_le (wellFormed : table.WellFormed) (past : table.size ≤ offset) :
    table.get? offset = none := by
  refine Option.eq_none_iff_forall_ne_some.mpr fun text found => ?_
  have bound := wellFormed.entry_le_size (get?_eq_some_iff.mp found)
  have := room_pos text
  omega

theorem find?_eq_none_iff : table.find? text = none ↔ ∀ offset, (offset, text) ∉ table.entries := by
  simp only [find?, Option.map_eq_none_iff, List.find?_eq_none, beq_iff_eq, Prod.forall]
  exact ⟨fun missing offset entry => missing offset text entry rfl,
    fun missing offset other entry same => missing offset (same ▸ entry)⟩

-- All later entries have greater offsets.
theorem least_of_find? (found : table.find? text = some offset) :
    (offset, text) ∈ table.entries ∧ ∀ other, (other, text) ∈ table.entries → offset ≤ other := by
  obtain ⟨⟨start, stored⟩, first, rfl⟩ := Option.map_eq_some_iff.mp found
  obtain ⟨same, front, rest, split, apart⟩ := List.find?_eq_some_iff_append.mp first
  obtain rfl : stored = text := by simpa using same
  have sorted := table.ascending_entries
  rw [split] at sorted ⊢
  refine ⟨List.mem_append_right _ List.mem_cons_self, fun other member => ?_⟩
  rcases List.mem_append.mp member with before | here
  · simpa using apart _ before
  · rcases List.mem_cons.mp here with same | after
    · exact Nat.le_of_eq (Prod.mk.inj same).1.symm
    · exact Nat.le_of_lt (List.rel_of_pairwise_cons (List.pairwise_append.mp sorted).2.1 after)

theorem find?_eq_some_iff : table.find? text = some offset ↔
    (offset, text) ∈ table.entries ∧ ∀ other, (other, text) ∈ table.entries → offset ≤ other := by
  refine ⟨least_of_find?, fun ⟨entry, least⟩ => ?_⟩
  cases found : table.find? text with
  | none => exact absurd entry (find?_eq_none_iff.mp found offset)
  | some other =>
    obtain ⟨stored, first⟩ := least_of_find? found
    rw [Nat.le_antisymm (first offset entry) (least other stored)]

/-! ## Adding texts -/

theorem add_of_check (checked : table.check text = .ok ()) :
    table.add text = (.ok table.size, table.push text) := by
  rw [add, checked]

theorem add_of_refused {e : Error} (refused : table.check text = .error e) :
    table.add text = (.error e, table) := by
  rw [add, refused]

/-- The table after these texts have been offered to it one after the other. -/
def filled (texts : List String) : StringTable :=
  texts.foldl (fun table text => (table.add text).2) {}

/-- Those of the texts that are taken, with the offsets that they are given. -/
def taken (texts : List String) : List (String × Nat) := Outcome.accepted add {} texts

/-- The entries are the texts taken so far, and the offset of each is one that fits a word. -/
structure Lists (table : StringTable) (taken : List (String × Nat)) : Prop where
  wellFormed : table.WellFormed
  entries : table.entries = (0, "") :: taken.map Prod.swap
  narrow : ∀ entry ∈ table.entries, entry.1 < 2 ^ 32

theorem Lists.push {before : List (String × Nat)} (lists : table.Lists before)
    (checked : table.check text = .ok ()) : (table.push text).Lists (before ++ [(text, table.size)]) where
  wellFormed := lists.wellFormed.push (check_eq_ok checked).1
  entries := by
    rw [entries_push, lists.entries, lists.wellFormed.size, List.map_append]
    rfl
  narrow := by
    intro entry member
    rw [entries_push, List.mem_append, List.mem_singleton] at member
    rcases member with old | rfl
    · exact lists.narrow entry old
    · exact lists.wellFormed.size ▸ (check_eq_ok checked).2

theorem lists_filled (texts : List String) : (filled texts).Lists (taken texts) := by
  have start : Lists {} [] := ⟨wellFormed_empty, rfl, by decide⟩
  exact Outcome.accepted_invariant (fun _ _ => rfl) (fun checked lists => lists.push checked) start texts

theorem WellFormed.one_le_size (wellFormed : table.WellFormed) : 1 ≤ table.size := by
  have bound := wellFormed.entry_le_size table.mem_entries_zero
  have := room_pos ""
  omega

/-- Both ways of looking something up agree with the list of entries, each of which starts where the texts
before it end, at the offset that it was given when it was taken. -/
structure ExactLookup (texts : List String) (table : StringTable) : Prop where
  entries : table.entries = (0, "") :: (taken texts).map Prod.swap
  ascending : (table.entries.map Prod.fst).Pairwise (· < ·)
  offset : ∀ i start text, table.entries[i]? = some (start, text) →
    start = ((table.entries.take i).map fun entry => entry.2.utf8ByteSize + 1).sum
  narrow : ∀ entry ∈ table.entries, entry.1 < 2 ^ 32
  /-- A text that can be taken is stored where the table ends. -/
  added : ∀ text, 0 ∉ utf8 text → table.size < 2 ^ 32 → 1 ≤ table.size ∧
    ∃ next, table.add text = (.ok table.size, next) ∧ next.entries = table.entries ++ [(table.size, text)]
  refused : ∀ text, 0 ∈ utf8 text → ∃ e, table.add text = (.error e, table) ∧ e.kind = .interiorNul
  textAt : ∀ start text, table.get? start = some text ↔ (start, text) ∈ table.entries
  textInside : ∀ start text k, (start, text) ∈ table.entries → 0 < k → k ≤ text.utf8ByteSize →
    table.get? (start + k) = none
  textPast : ∀ start, table.size ≤ start → table.get? start = none
  /-- The look-up may halve the entries, since their offsets ascend. -/
  halving : ∀ start, table.get? start =
    (table.entries.toArray.binSearch (start, "") fun a b => a.1 < b.1).map Prod.snd
  place : ∀ text start, table.find? text = some start ↔
    (start, text) ∈ table.entries ∧ ∀ other, (other, text) ∈ table.entries → start ≤ other
  noPlace : ∀ text, table.find? text = none ↔ ∀ start, (start, text) ∉ table.entries
  placeOfEmpty : table.find? "" = some 0

theorem exact_lookup (texts : List String) : (filled texts).ExactLookup texts := by
  have lists := lists_filled texts
  exact {
    entries := lists.entries
    ascending := List.pairwise_map.mpr (filled texts).ascending_entries
    offset := fun i start text here => by
      have sum := offset_entriesFrom here
      rw [Nat.zero_add, ← map_snd_entriesFrom 0 (filled texts).texts, ← List.map_take,
        List.map_map] at sum
      exact sum
    narrow := lists.narrow
    added := fun text closed small => by
      refine ⟨lists.wellFormed.one_le_size, _, add_of_check (check_eq_ok_iff.mpr ⟨closed, small⟩), ?_⟩
      rw [entries_push, lists.wellFormed.size]
    refused := fun _ interior => ⟨_, add_of_refused (if_pos interior), rfl⟩
    textAt := fun _ _ => get?_eq_some_iff
    textInside := fun _ _ _ entry positive inside =>
      get?_eq_none_of_inside entry positive (Nat.lt_succ_of_le inside)
    textPast := fun _ past => lists.wellFormed.get?_eq_none_of_size_le past
    halving := (filled texts).get?_eq_binSearch
    place := fun _ _ => find?_eq_some_iff
    noPlace := fun _ => find?_eq_none_iff
    placeOfEmpty :=
      find?_eq_some_iff.mpr ⟨(filled texts).mem_entries_zero, fun other _ => Nat.zero_le other⟩ }

-- The second text is refused, and the same text is taken twice.
example : taken ["", "a\x00b", "é", "é"] = [("", 1), ("é", 2), ("é", 5)] := by decide +kernel

end StringTable

end Elf64
