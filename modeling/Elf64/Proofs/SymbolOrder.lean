import Elf64.Proofs.Codec

/-! Symbols in the order in which they are taken.

A table that symbols are offered to, some of which it refuses, lists those that it took behind the reserved
one and finds each of them under its name (`SymbolTable.Lists`). It has its local symbols in front. Whether
all symbols are local is told from their count alone, which is enough to refuse a local symbol for its place
if and only if one of the others is not local (`SymbolTable.locals_first`). -/

set_option autoImplicit false

namespace Elf64.SymbolTable

variable {table : SymbolTable} {name : String} {symbol : Symbol} {i : Nat}

/-! ## What a table lists -/

/-- The table has taken these symbols under these names, and has given them these indexes. -/
structure Lists (table : SymbolTable) (entries : List ((String × Symbol) × Nat)) : Prop where
  symbols : table.symbols = {} :: entries.map fun entry => entry.1.2
  numbered : entries.map Prod.snd = List.range' 1 entries.length
  indexed : ∀ name i, table.indexOf? name = some i ↔
    name ≠ "" ∧ ∃ symbol, ((name, symbol), i) ∈ entries

variable {entries : List ((String × Symbol) × Nat)}

theorem lists_empty : ({} : SymbolTable).Lists [] where
  symbols := rfl
  numbered := rfl
  indexed name i := by simp [indexOf?]

theorem Lists.size (lists : table.Lists entries) : table.size = 1 + entries.length := by
  rw [← length_symbols, lists.symbols, List.length_cons, List.length_map, Nat.add_comm]

theorem Lists.push (lists : table.Lists entries) (unused : name = "" ∨ table.indexOf? name = none)
    (symbol : Symbol) : (table.push name symbol).Lists (entries ++ [((name, symbol), table.size)]) where
  symbols := by rw [symbols_push, lists.symbols, List.map_append]; rfl
  numbered := by
    rw [List.map_append, lists.numbered, List.length_append, List.length_singleton, List.range'_1_concat,
      lists.size]
    rfl
  indexed other i := by
    rw [indexOf?_push]
    by_cases new : name ≠ "" ∧ name = other
    · -- Nothing was taken under the name before.
      obtain ⟨named, rfl⟩ := new
      have absent (symbol : Symbol) (i : Nat) : ((name, symbol), i) ∉ entries := by
        intro member
        have found := (lists.indexed name i).mpr ⟨named, symbol, member⟩
        rw [unused.resolve_left named] at found
        contradiction
      simp [named, absent, eq_comm]
    · rw [if_neg new, lists.indexed]
      refine and_congr_right fun named => exists_congr fun found => ?_
      rw [List.mem_append, List.mem_singleton]
      refine (or_iff_left fun same => ?_).symm
      obtain rfl : other = name := congrArg (fun entry => entry.1.1) same
      exact new ⟨named, rfl⟩

/-- An index leads to the symbol that it was given to. -/
theorem Lists.get? (lists : table.Lists entries) (member : ((name, symbol), i) ∈ entries) :
    table.get? i = some symbol := by
  obtain ⟨j, here⟩ := List.getElem?_of_mem member
  have index : (List.range' 1 entries.length)[j]? = some i := by
    rw [← lists.numbered, List.getElem?_map, here]
    rfl
  obtain rfl : 1 + j = i := by
    obtain ⟨inside, same⟩ := List.getElem?_eq_some_iff.mp index
    simpa using same
  rw [get?_eq, lists.symbols, Nat.add_comm, List.getElem?_cons_succ, List.getElem?_map, here]
  rfl

/-! ## Offering symbols -/

theorem add_of_check (checked : table.check name symbol = .ok ()) :
    table.add name symbol = (.ok table.size, table.push name symbol) := by
  rw [add, checked]

theorem add_of_refused {e : Error} (refused : table.check name symbol = .error e) :
    table.add name symbol = (.error e, table) := by
  rw [add, refused]

/-- Those of these symbols that a new table takes if they are offered to it one after the other, with the
indexes that they are given. -/
def taken (offered : List (String × Symbol)) : List ((String × Symbol) × Nat) :=
  Outcome.accepted (fun table entry => add table entry.1 entry.2) {} offered

theorem lists_filled (offered : List (String × Symbol)) : (filled offered).Lists (taken offered) :=
  Outcome.accepted_invariant (fun _ _ => rfl)
    (fun checked lists => lists.push (check_eq_ok_iff.mp checked).1 _) lists_empty offered

theorem WellFormed.locals_pos (wellFormed : table.WellFormed) : 1 ≤ table.locals := by
  have first : table.symbols[0]? = some { name := 0 } := rfl
  exact (wellFormed.partition first).mp rfl

theorem WellFormed.add_of_placed (wellFormed : table.WellFormed)
    (unused : name = "" ∨ table.indexOf? name = none) (valid : symbol.validate = .ok ())
    (placed : symbol.binding = .localOnly → ∀ other ∈ table.symbols, other.binding = .localOnly) :
    table.add name symbol = (.ok table.size, table.push name symbol) :=
  add_of_check (check_eq_ok_iff.mpr
    ⟨unused, valid, fun isLocal => wellFormed.size_le_locals_iff.mpr (placed isLocal)⟩)

-- The place of a symbol is all that is left to be checked.
theorem WellFormed.add_local (wellFormed : table.WellFormed) (isLocal : symbol.binding = .localOnly)
    (unused : name = "" ∨ table.indexOf? name = none) (valid : symbol.validate = .ok ()) :
    table.add name symbol =
      if ∃ other ∈ table.symbols, other.binding ≠ .localOnly then
        (.error (.misorderedSymbol name), table)
      else (.ok table.size, table.push name symbol) := by
  by_cases misplaced : ∃ other ∈ table.symbols, other.binding ≠ .localOnly
  · obtain ⟨other, member, notLocal⟩ := misplaced
    have checked : table.check name symbol = table.checkOrder name symbol := by
      rw [check, checkName_eq_ok_iff.mpr unused, valid]
      rfl
    have short : ¬ table.size ≤ table.locals :=
      fun full => notLocal (wellFormed.size_le_locals_iff.mp full other member)
    rw [if_pos ⟨other, member, notLocal⟩]
    exact add_of_refused (checked.trans (if_pos ⟨isLocal, Nat.lt_of_not_le short⟩))
  · rw [if_neg misplaced]
    refine wellFormed.add_of_placed unused valid fun _ other member => ?_
    exact not_not.mp fun notLocal => misplaced ⟨other, member, notLocal⟩

/-- A table that these symbols have been offered to under these names. -/
structure LocalsFirst (offered : List (String × Symbol)) (table : SymbolTable) : Prop where
  reserved : table.get? 0 = some {}
  partition : ∀ i symbol, table.get? i = some symbol →
    (symbol.binding = .localOnly ↔ i < table.firstGlobal)
  bounds : 1 ≤ table.firstGlobal ∧ table.firstGlobal ≤ table.size
  inOrder : table.symbols = {} :: (taken offered).map fun entry => entry.1.2
  /-- A name leads to the one symbol that was taken under it, and the empty name leads nowhere. -/
  indexed : ∀ name i, table.indexOf? name = some i ↔
    name ≠ "" ∧ ∃ symbol, ((name, symbol), i) ∈ taken offered ∧ table.get? i = some symbol
  /-- A local symbol that could be taken otherwise is refused if there is one that is not local. -/
  misplaced : ∀ name symbol, symbol.binding = .localOnly → (name = "" ∨ table.indexOf? name = none) →
    symbol.validate = .ok () →
      ((∃ e, (table.add name symbol).1 = .error e ∧ e.kind = .misorderedSymbol) ↔
        ∃ other ∈ table.symbols, other.binding ≠ .localOnly)
  /-- Any other symbol that could be taken is taken, and is put behind the others. -/
  placed : ∀ name symbol, (name = "" ∨ table.indexOf? name = none) → symbol.validate = .ok () →
    (symbol.binding = .localOnly → ∀ other ∈ table.symbols, other.binding = .localOnly) →
      ∃ next, table.add name symbol = (.ok table.size, next) ∧ next.symbols = table.symbols ++ [symbol] ∧
        (name ≠ "" → next.indexOf? name = some table.size)

theorem locals_first (offered : List (String × Symbol)) : (filled offered).LocalsFirst offered := by
  have wellFormed := wellFormed_filled offered
  have lists := lists_filled offered
  exact {
    reserved := rfl
    partition := fun i symbol found => wellFormed.partition ((get?_eq _ i).symm.trans found)
    bounds := ⟨wellFormed.locals_pos, wellFormed.locals_le⟩
    inOrder := lists.symbols
    indexed := fun name i => by
      rw [lists.indexed]
      refine and_congr_right fun _ => exists_congr fun symbol => ?_
      exact ⟨fun member => ⟨member, lists.get? member⟩, And.left⟩
    misplaced := fun name symbol isLocal unused valid => by
      rw [wellFormed.add_local isLocal unused valid]
      split
      · next misplaced => exact iff_of_true ⟨_, rfl, rfl⟩ misplaced
      · next placed => exact iff_of_false nofun placed
    placed := fun name symbol unused valid placed => by
      refine ⟨_, wellFormed.add_of_placed unused valid placed, symbols_push _ name symbol, fun named => ?_⟩
      rw [indexOf?_push, if_pos ⟨named, rfl⟩] }

/-- The file that the symbols come from, a global function, and a local symbol that comes too late. -/
def mixedSymbols : List (String × Symbol) :=
  [("main.c", { info := packInfo SymbolBinding.localOnly.raw SymbolType.file.raw }),
    ("main", { info := packInfo SymbolBinding.global.raw SymbolType.func.raw }),
    ("late", {})]

/-- With a symbol that is not local in the table, the local one is refused, and a weak one would not be. -/
theorem mixed_locals_first :
    (taken mixedSymbols).map (fun entry => (entry.1.1, entry.2)) = [("main.c", 1), ("main", 2)] ∧
    (filled mixedSymbols).LocalsFirst mixedSymbols ∧
    (∃ e, ((filled mixedSymbols).add "late" {}).1 = .error e ∧ e.kind = .misorderedSymbol) ∧
    ∃ next, (filled mixedSymbols).add "late" { info := packInfo SymbolBinding.weak.raw 0 } = (.ok 3, next) := by
  have first := locals_first mixedSymbols
  have size : (filled mixedSymbols).size = 3 := by decide +kernel
  have unused : (filled mixedSymbols).indexOf? "late" = none := by decide +kernel
  refine ⟨by decide +kernel, first, (first.misplaced "late" {} rfl (.inr unused) rfl).mpr ?_, ?_⟩
  · decide +kernel
  · obtain ⟨next, added, -⟩ :=
      first.placed "late" { info := packInfo SymbolBinding.weak.raw 0 } (.inr unused) rfl nofun
    exact ⟨next, size ▸ added⟩

end Elf64.SymbolTable
