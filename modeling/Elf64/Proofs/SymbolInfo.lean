import Mathlib.Data.List.Induction
import Elf64.Proofs.Records

/-! The byte that a symbol's binding and type share.

Packing and taking apart are exact on values of four bits. A symbol that is built by setting its fields in any
order, some of them refused, some of them more than once, has the binding and the type that were
accepted last (`Symbol.binding_built`, `Symbol.type_built`), and every symbol can be built so
(`Symbol.exists_built`). -/

set_option autoImplicit false

namespace Elf64

/-! ## Halves of a byte -/

theorem toNat_packInfo (binding type : UInt8) :
    (packInfo binding type).toNat = 16 * (binding.toNat % 16) + type.toNat % 16 := by
  have small : type.toNat % 16 < 2 ^ 4 := Nat.mod_lt _ (by decide)
  have low : type.toNat &&& 15 = type.toNat % 16 := Nat.and_two_pow_sub_one_eq_mod type.toNat 4
  have high : binding.toNat <<< 4 % 256 = 2 ^ 4 * (binding.toNat % 16) := by
    rw [Nat.shiftLeft_eq]
    omega
  -- The two halves have no bit in common, so that joining them is adding them.
  have joined := Nat.two_pow_add_eq_or_of_lt small (binding.toNat % 16)
  simp only [packInfo, UInt8.toNat_or, UInt8.toNat_shiftLeft, UInt8.toNat_and, UInt8.reduceToNat,
    Nat.reduceMod, Nat.reducePow, low, high]
  exact joined.symm

theorem toNat_infoBinding (info : UInt8) : (infoBinding info).toNat = info.toNat / 16 := by
  simp [infoBinding, Nat.shiftRight_eq_div_pow]

theorem toNat_infoType (info : UInt8) : (infoType info).toNat = info.toNat % 16 := by
  simpa [infoType] using Nat.and_two_pow_sub_one_eq_mod info.toNat 4

theorem infoBinding_lt (info : UInt8) : infoBinding info < 16 := by
  have bound := info.toNat_lt
  rw [UInt8.lt_iff_toNat_lt, toNat_infoBinding]
  simp only [UInt8.reduceToNat]
  omega

theorem infoType_lt (info : UInt8) : infoType info < 16 := by
  rw [UInt8.lt_iff_toNat_lt, toNat_infoType]
  exact Nat.mod_lt _ (by decide)

theorem infoBinding_packInfo {binding : UInt8} (small : binding < 16) (type : UInt8) :
    infoBinding (packInfo binding type) = binding := by
  rw [UInt8.lt_iff_toNat_lt] at small
  apply UInt8.toNat.inj
  rw [toNat_infoBinding, toNat_packInfo]
  simp only [UInt8.reduceToNat] at small
  omega

theorem infoType_packInfo (binding : UInt8) {type : UInt8} (small : type < 16) :
    infoType (packInfo binding type) = type := by
  rw [UInt8.lt_iff_toNat_lt] at small
  apply UInt8.toNat.inj
  rw [toNat_infoType, toNat_packInfo]
  simp only [UInt8.reduceToNat] at small
  omega

theorem packInfo_halves (info : UInt8) : packInfo (infoBinding info) (infoType info) = info := by
  have bound := info.toNat_lt
  apply UInt8.toNat.inj
  rw [toNat_packInfo, toNat_infoBinding, toNat_infoType]
  omega

/-! ## Checks -/

theorem SymbolBinding.check_eq_ok_iff {binding : SymbolBinding} :
    binding.check = .ok () ↔ binding.raw < 16 ∧ ofRaw binding.raw = binding := by
  unfold check
  split <;> simp [*]

theorem SymbolType.check_eq_ok_iff {type : SymbolType} :
    type.check = .ok () ↔ type.raw < 16 ∧ ofRaw type.raw = type := by
  unfold check
  split <;> simp [*]

theorem SymbolBinding.check_ofRaw {n : UInt8} (small : n < 16) : (ofRaw n).check = .ok () := by
  rw [check_eq_ok_iff, raw_ofRaw]
  exact ⟨small, rfl⟩

theorem SymbolType.check_ofRaw {n : UInt8} (small : n < 16) : (ofRaw n).check = .ok () := by
  rw [check_eq_ok_iff, raw_ofRaw]
  exact ⟨small, rfl⟩

/-! ## Symbols built by setting fields -/

namespace Symbol

variable {symbol : Symbol} {e : Error}

theorem setBinding_of_check {new : SymbolBinding} (accepted : new.check = .ok ()) :
    symbol.setBinding new = .ok { symbol with info := packInfo new.raw (infoType symbol.info) } := by
  rw [setBinding, accepted]
  rfl

theorem setBinding_of_refused {new : SymbolBinding} (refused : new.check = .error e) :
    symbol.setBinding new = .error e := by
  rw [setBinding, refused]
  rfl

theorem setType_of_check {new : SymbolType} (accepted : new.check = .ok ()) :
    symbol.setType new = .ok { symbol with info := packInfo (infoBinding symbol.info) new.raw } := by
  rw [setType, accepted]
  rfl

theorem setType_of_refused {new : SymbolType} (refused : new.check = .error e) :
    symbol.setType new = .error e := by
  rw [setType, refused]
  rfl

/-- A field of a symbol and the value that it is set to. -/
inductive Setting where
  | name (offset : UInt32)
  | binding (binding : SymbolBinding)
  | type (type : SymbolType)
  | definedIn (place : SectionRef)
  | value (value : UInt64)
  | size (size : UInt64)
  deriving DecidableEq, Repr

namespace Setting

/-- A binding or a type that is refused leaves the symbol as it is. -/
def apply (symbol : Symbol) : Setting → Symbol
  | name offset => { symbol with name := offset }
  | binding new => (symbol.setBinding new).toOption.getD symbol
  | type new => (symbol.setType new).toOption.getD symbol
  | definedIn place => { symbol with definedIn := place }
  | value new => { symbol with value := new }
  | size new => { symbol with size := new }

/-- The binding that is set, if it is accepted. -/
def binding? : Setting → Option SymbolBinding
  | binding new => new.check.toOption.map fun _ => new
  | _ => none

/-- The type that is set, if it is accepted. -/
def type? : Setting → Option SymbolType
  | type new => new.check.toOption.map fun _ => new
  | _ => none

theorem binding_apply (symbol : Symbol) (setting : Setting) :
    (setting.apply symbol).binding = setting.binding?.getD symbol.binding := by
  cases setting with
  | binding new =>
    cases checked : new.check with
    | error e => simp [apply, setBinding_of_refused checked, binding?, checked, Except.toOption]
    | ok done =>
      obtain ⟨small, known⟩ := SymbolBinding.check_eq_ok_iff.mp checked
      simp [apply, setBinding_of_check checked, binding?, checked, Except.toOption, Symbol.binding,
        infoBinding_packInfo small, known]
  | type new =>
    -- The other half of the byte is packed again as it was.
    cases checked : new.check with
    | error e => simp [apply, setType_of_refused checked, binding?, Except.toOption]
    | ok done =>
      simp [apply, setType_of_check checked, binding?, Except.toOption, Symbol.binding,
        infoBinding_packInfo (infoBinding_lt symbol.info)]
  | name | definedIn | value | size => rfl

theorem type_apply (symbol : Symbol) (setting : Setting) :
    (setting.apply symbol).type = setting.type?.getD symbol.type := by
  cases setting with
  | binding new =>
    cases checked : new.check with
    | error e => simp [apply, setBinding_of_refused checked, type?, Except.toOption]
    | ok done =>
      simp [apply, setBinding_of_check checked, type?, Except.toOption, Symbol.type,
        infoType_packInfo _ (infoType_lt symbol.info)]
  | type new =>
    cases checked : new.check with
    | error e => simp [apply, setType_of_refused checked, type?, checked, Except.toOption]
    | ok done =>
      obtain ⟨small, known⟩ := SymbolType.check_eq_ok_iff.mp checked
      simp [apply, setType_of_check checked, type?, checked, Except.toOption, Symbol.type,
        infoType_packInfo _ small, known]
  | name | definedIn | value | size => rfl

end Setting

/-- The symbol that setting fields makes of a new one. -/
def built (settings : List Setting) : Symbol := settings.foldl Setting.apply {}

theorem built_concat (settings : List Setting) (last : Setting) :
    built (settings ++ [last]) = last.apply (built settings) := by
  simp [built]

theorem getLastD_filterMap_concat {α β : Type} (f : α → Option β) (items : List α) (last : α) (start : β) :
    ((items ++ [last]).filterMap f).getLastD start = (f last).getD ((items.filterMap f).getLastD start) := by
  cases here : f last <;> simp [List.filterMap_append, here]

/-- A symbol has the binding that was accepted last. -/
theorem binding_built (settings : List Setting) :
    (built settings).binding = (settings.filterMap Setting.binding?).getLastD .localOnly := by
  induction settings using List.reverseRecOn with
  | nil => rfl
  | append_singleton settings last ih =>
    rw [built_concat, last.binding_apply, ih, getLastD_filterMap_concat]

/-- A symbol has the type that was accepted last. -/
theorem type_built (settings : List Setting) :
    (built settings).type = (settings.filterMap Setting.type?).getLastD .noType := by
  induction settings using List.reverseRecOn with
  | nil => rfl
  | append_singleton settings last ih =>
    rw [built_concat, last.type_apply, ih, getLastD_filterMap_concat]

/-- Every byte of binding and type can be set, so that every symbol can be built. -/
theorem exists_built (symbol : Symbol) : ∃ settings, built settings = symbol := by
  refine ⟨[.name symbol.name, .binding symbol.binding, .type symbol.type, .definedIn symbol.definedIn,
    .value symbol.value, .size symbol.size], ?_⟩
  have binding : symbol.binding.check = .ok () := SymbolBinding.check_ofRaw (infoBinding_lt symbol.info)
  have type : symbol.type.check = .ok () := SymbolType.check_ofRaw (infoType_lt symbol.info)
  have halves : packInfo symbol.binding.raw symbol.type.raw = symbol.info := by
    rw [Symbol.binding, Symbol.type, SymbolBinding.raw_ofRaw, SymbolType.raw_ofRaw, packInfo_halves]
  have small : symbol.binding.raw < 16 := (SymbolBinding.check_eq_ok_iff.mp binding).1
  simp [built, Setting.apply, setBinding_of_check binding, setType_of_check type, Except.toOption,
    infoBinding_packInfo small, halves]

end Symbol

end Elf64
