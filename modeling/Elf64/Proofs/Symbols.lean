import Elf64.Proofs.Records

/-! The order of the symbols in a table.

The table only counts its local symbols and compares the count with its size. That is enough to
keep every local symbol in front of the others (`SymbolTable.WellFormed.partition`). -/

set_option autoImplicit false

namespace Elf64

theorem Symbol.binding_eq_localOnly_iff (symbol : Symbol) :
    symbol.binding = .localOnly ↔ infoBinding symbol.info = 0 := by
  constructor
  · intro isLocal
    rw [← SymbolBinding.raw_ofRaw (infoBinding symbol.info)]
    exact congrArg SymbolBinding.raw isLocal
  · intro zero
    simp [binding, zero, SymbolBinding.ofRaw]

namespace SymbolTable

structure WellFormed (table : SymbolTable) : Prop where
  locals_le : table.locals ≤ table.size
  /-- A symbol is local if and only if its index is below the count of local symbols. -/
  partition : ∀ {i : Nat} {symbol : Symbol}, table.symbols[i]? = some symbol →
    (symbol.binding = .localOnly ↔ i < table.locals)
  checked : ∀ symbol ∈ table.symbols, symbol.definedIn.check = .ok ()

@[simp] theorem length_symbols (table : SymbolTable) : table.symbols.length = table.size := rfl

theorem get?_eq (table : SymbolTable) (i : Nat) : table.get? i = table.symbols[i]? := by
  cases i <;> simp [get?, symbols]

@[simp] theorem symbols_push (table : SymbolTable) (name : String) (symbol : Symbol) :
    (table.push name symbol).symbols = table.symbols ++ [symbol] := by
  simp [push, symbols]

@[simp] theorem size_push (table : SymbolTable) (name : String) (symbol : Symbol) :
    (table.push name symbol).size = table.size + 1 := by
  simp [push, size]

@[simp] theorem locals_push (table : SymbolTable) (name : String) (symbol : Symbol) :
    (table.push name symbol).locals =
      if symbol.binding = .localOnly then table.locals + 1 else table.locals := rfl

theorem check_eq_ok {table : SymbolTable} {name : String} {symbol : Symbol}
    (checked : table.check name symbol = .ok ()) :
    symbol.definedIn.check = .ok () ∧ (symbol.binding = .localOnly → table.size ≤ table.locals) := by
  simp only [check, Symbol.validate, bind, Except.bind] at checked
  split at checked
  · contradiction
  · split at checked
    · contradiction
    · next valid =>
      refine ⟨valid, fun isLocal => ?_⟩
      simpa [checkOrder, isLocal] using checked

theorem wellFormed_empty : ({} : SymbolTable).WellFormed where
  locals_le := Nat.le_refl 1
  partition := by
    intro i symbol found
    cases i with
    | zero =>
      obtain rfl : {} = symbol := by simpa [symbols] using found
      decide
    | succ i => simp [symbols] at found
  checked := by
    intro symbol member
    obtain rfl : symbol = {} := by simpa [symbols] using member
    rfl

theorem WellFormed.push {table : SymbolTable} (wellFormed : table.WellFormed) {symbol : Symbol}
    (checked : symbol.definedIn.check = .ok ())
    (ordered : symbol.binding = .localOnly → table.size ≤ table.locals) (name : String) :
    (table.push name symbol).WellFormed where
  locals_le := by
    have bound := wellFormed.locals_le
    simp only [locals_push, size_push]
    split <;> omega
  partition := by
    intro i other found
    have bound := wellFormed.locals_le
    rw [symbols_push, List.getElem?_append, length_symbols] at found
    split at found
    · next old =>
      -- Counting one more local symbol is harmless for an older index only because all were local.
      rw [wellFormed.partition found, locals_push]
      split
      · next isLocal => have := ordered isLocal; omega
      · exact Iff.rfl
    · next new =>
      obtain ⟨position, same⟩ := List.getElem?_eq_some_iff.mp found
      have last : i = table.size := by simp at position; omega
      subst last
      obtain rfl : symbol = other := by simpa using same
      by_cases isLocal : symbol.binding = .localOnly
      · have := ordered isLocal
        simp only [locals_push, isLocal, ↓reduceIte, true_iff]
        omega
      · simpa [isLocal] using bound
  checked := by
    intro other member
    rw [symbols_push, List.mem_append, List.mem_singleton] at member
    rcases member with old | rfl
    · exact wellFormed.checked other old
    · exact checked

/-! ## Writing the table -/

theorem encode_records (order : ByteOrder) (table : SymbolTable) :
    table.records.flatMap (Record.encode order) = table.encode order := by
  rw [records, encode, List.flatMap_map]
  rfl

theorem records_fit (table : SymbolTable) : ∀ record ∈ table.records, record.Fits := by
  intro record member
  obtain ⟨symbol, -, rfl⟩ := List.mem_map.mp member
  exact symbol.record_fits

end SymbolTable

end Elf64
