import Elf64.Proofs.Run

/-! When the tables accept what is added to them.

Each check is passed under conditions that can be told from what has been added before: the names that
are in use, and whether all symbols are local. Of what is offered one after the other some is accepted,
and what accepting keeps holds at the end (`Outcome.accepted_invariant`). -/

set_option autoImplicit false

namespace Elf64

namespace Outcome

variable {σ ι α : Type}

/-- Those that are accepted, with their answers, if these are offered one after the other. -/
def accepted (offer : σ → ι → Outcome σ α) : σ → List ι → List (ι × α)
  | _, [] => []
  | state, item :: rest =>
    match offer state item with
    | (.ok answer, next) => (item, answer) :: accepted offer next rest
    | (.error _, next) => accepted offer next rest

theorem accepted_concat (offer : σ → ι → Outcome σ α) (state : σ) (items : List ι) (item : ι) :
    accepted offer state (items ++ [item]) = accepted offer state items ++
      ((offer (items.foldl (fun state item => (offer state item).2) state) item).1.toOption.map
        (item, ·)).toList := by
  induction items generalizing state with
  | nil =>
    rcases outcome : offer state item with ⟨e | answer, next⟩ <;> simp [accepted, outcome, Except.toOption]
  | cons first rest ih =>
    rcases outcome : offer state first with ⟨e | answer, next⟩ <;> simp [accepted, outcome, ih]

-- What is refused leaves no trace, so that an invariant has to be kept by what is accepted only.
theorem accepted_invariant {offer : σ → ι → Outcome σ α} {check : σ → ι → Except Error Unit}
    {answer : σ → α} {push : σ → ι → σ} {holds : σ → List (ι × α) → Prop}
    (offer_eq : ∀ state item, offer state item =
      match check state item with
      | .error e => (.error e, state)
      | .ok () => (.ok (answer state), push state item))
    (pushed : ∀ {state item before}, check state item = .ok () → holds state before →
      holds (push state item) (before ++ [(item, answer state)]))
    {state : σ} {before : List (ι × α)} (start : holds state before) (items : List ι) :
    holds (items.foldl (fun state item => (offer state item).2) state)
      (before ++ accepted offer state items) := by
  induction items generalizing state before with
  | nil => simpa [accepted] using start
  | cons item rest ih =>
    rw [List.foldl_cons, accepted, offer_eq]
    cases checked : check state item with
    | error e => exact ih start
    | ok done =>
      have later := ih (pushed checked start)
      rwa [List.append_assoc, List.singleton_append] at later

-- The same for what is said about the state alone.
theorem foldl_invariant {offer : σ → ι → Outcome σ α} {check : σ → ι → Except Error Unit}
    {answer : σ → α} {push : σ → ι → σ} {motive : σ → Prop}
    (offer_eq : ∀ state item, offer state item =
      match check state item with
      | .error e => (.error e, state)
      | .ok () => (.ok (answer state), push state item))
    (pushed : ∀ {state item}, check state item = .ok () → motive state → motive (push state item))
    {state : σ} (start : motive state) (items : List ι) :
    motive (items.foldl (fun state item => (offer state item).2) state) := by
  have kept := @accepted_invariant σ ι α offer check answer push (fun state _ => motive state) offer_eq pushed
  exact @kept state [] start items

end Outcome

namespace StringTable

theorem check_eq_ok_iff {table : StringTable} {text : String} :
    table.check text = .ok () ↔ 0 ∉ utf8 text ∧ table.size < 0x100000000 := by
  refine ⟨check_eq_ok, fun ⟨closed, small⟩ => ?_⟩
  rw [check, if_neg closed]
  exact (FixedInt.check_count_iff table.size .word).mpr small

end StringTable

namespace SectionTable

variable {table : SectionTable} {name : String}

theorem check_eq_ok_iff {header : SectionHeader} :
    table.check name header = .ok () ↔ table.indexOf? name = none ∧ header.validate = .ok () := by
  refine ⟨check_eq_ok, fun ⟨unused, valid⟩ => ?_⟩
  rw [check, if_neg, valid]
  rw [Std.TreeMap.contains_eq_isSome_getElem?]
  exact Option.not_isSome_iff_eq_none.mpr unused

theorem nameOf?_listing (table : SectionTable) (i : Nat) :
    table.nameOf? (i + 1) = (table.listing.map Prod.fst)[i]? := by
  simp [nameOf?, listing, Function.comp_def]

theorem WellFormed.indexOf?_eq_none_iff (wellFormed : table.WellFormed) :
    table.indexOf? name = none ↔ name ∉ table.listing.map Prod.fst := by
  constructor
  · intro missing member
    obtain ⟨i, listed⟩ := List.getElem?_of_mem member
    rw [← nameOf?_listing, ← wellFormed.indexed, missing] at listed
    contradiction
  · intro unlisted
    refine Option.eq_none_iff_forall_ne_some.mpr fun i found => ?_
    have named := (wellFormed.indexed name i).mp found
    cases i with
    | zero => contradiction
    | succ i =>
      rw [nameOf?_listing] at named
      exact unlisted (List.mem_of_getElem? named)

end SectionTable

namespace SymbolTable

variable {table : SymbolTable} {name : String}

theorem checkName_eq_ok_iff :
    table.checkName name = .ok () ↔ name = "" ∨ table.indexOf? name = none := by
  simp only [checkName, indexOf?, Std.TreeMap.contains_eq_isSome_getElem?]
  by_cases unnamed : name = ""
  · simp [unnamed]
  · cases table.index[name]? <;> simp [unnamed]

theorem checkOrder_eq_ok_iff (name : String) {symbol : Symbol} :
    table.checkOrder name symbol = .ok () ↔
      (symbol.binding = .localOnly → table.size ≤ table.locals) := by
  simp only [checkOrder]
  split
  · next misplaced => simpa [misplaced.1] using misplaced.2
  · next placed => simpa using placed

theorem check_eq_ok_iff {symbol : Symbol} : table.check name symbol = .ok () ↔
    (name = "" ∨ table.indexOf? name = none) ∧ symbol.definedIn.check = .ok () ∧
      (symbol.binding = .localOnly → table.size ≤ table.locals) := by
  rw [← checkName_eq_ok_iff, ← checkOrder_eq_ok_iff name]
  simp only [check, Symbol.validate]
  cases table.checkName name with
  | error e => simp [bind, Except.bind]
  | ok done => cases symbol.definedIn.check <;> simp [bind, Except.bind]

theorem indexOf?_push (table : SymbolTable) (name : String) (symbol : Symbol) (other : String) :
    (table.push name symbol).indexOf? other =
      if name ≠ "" ∧ name = other then some table.size else table.indexOf? other := by
  by_cases unnamed : name = ""
  · simp [push, indexOf?, unnamed]
  · simp [push, indexOf?, unnamed, Std.TreeMap.getElem?_insert]

-- All of them are local if their count reaches the end.
theorem WellFormed.size_le_locals_iff (wellFormed : table.WellFormed) :
    table.size ≤ table.locals ↔ ∀ symbol ∈ table.symbols, symbol.binding = .localOnly := by
  constructor
  · intro full symbol member
    obtain ⟨i, found⟩ := List.getElem?_of_mem member
    refine (wellFormed.partition found).mpr ?_
    obtain ⟨bound, -⟩ := List.getElem?_eq_some_iff.mp found
    exact Nat.lt_of_lt_of_le bound full
  · intro all
    have bound : table.size - 1 < table.symbols.length := by simp [size]
    have last := (wellFormed.partition (List.getElem?_eq_getElem bound)).mp (all _ (List.getElem_mem bound))
    omega

end SymbolTable

/-! ## Two checks, one after the other -/

namespace Image

/-- An answer that has to pass two checks. Only before the second one do the headers count as out of
date. -/
def afterChecks {α : Type} (image : Image) (first second : Except Error Unit) (answer : α)
    (next : Image) : Outcome Image α :=
  match first with
  | .error e => (.error e, image)
  | .ok () =>
    match second with
    | .error e => (.error e, image.reopen)
    | .ok () => (.ok answer, next)

theorem addSection_eq (image : Image) (name : String) (header : SectionHeader) (contents : Bytes) :
    image.addSection name header contents = image.afterChecks (image.sections.check name header)
      (image.strings.check name) image.sections.size (image.pushSection name header contents) := rfl

theorem addSymbol_eq (image : Image) (name : String) (symbol : Symbol) :
    image.addSymbol name symbol = image.afterChecks (image.symbols.check name symbol)
      (if name = "" then .ok () else image.strings.check name) image.symbols.size
      (image.pushSymbol name symbol) := rfl

theorem afterChecks_isOk_iff {α : Type} {image next : Image} {first second : Except Error Unit}
    {answer : α} :
    (image.afterChecks first second answer next).1.isOk ↔ first = .ok () ∧ second = .ok () := by
  cases first <;> cases second <;> simp [afterChecks, Except.isOk, Except.toBool]

-- What the images before and after the checks have in common, the results have in common too.
theorem afterChecks_related {α : Type} (related : Image → Image → Prop) {old new before after : Image}
    {first second : Except Error Unit} {answer : α} (same : related old new)
    (reopened : related old.reopen new.reopen) (passed : first = .ok () → related before after) :
    (new.afterChecks first second answer after).1 = (old.afterChecks first second answer before).1 ∧
      related (old.afterChecks first second answer before).2
        (new.afterChecks first second answer after).2 := by
  cases first with
  | error e => exact ⟨rfl, same⟩
  | ok done =>
    cases second with
    | error e => exact ⟨rfl, reopened⟩
    | ok done => exact ⟨rfl, passed rfl⟩

end Image

/-! ## What has been added -/

theorem Image.indexOf?_pushSymbol (image : Image) (name : String) (symbol : Symbol) (other : String) :
    (image.pushSymbol name symbol).symbols.indexOf? other =
      if name ≠ "" ∧ name = other then some image.symbols.size else image.symbols.indexOf? other := by
  by_cases unnamed : name = ""
  · rw [unnamed, pushSymbol_unnamed, SymbolTable.indexOf?_push]
  · rw [pushSymbol_named image unnamed, SymbolTable.indexOf?_push]

-- A name is in use once a symbol has been added under it.
theorem Image.Step.symbolNames {image next : Image} {edit : Edit} {answer : Except Error Answer}
    (step : image.Step edit answer next) {name : String} (named : name ≠ "") {names : List String}
    (before : image.symbols.indexOf? name = none ↔ name ∉ names) :
    next.symbols.indexOf? name = none ↔ name ∉ names ++ (edit.symbol? answer).toList := by
  have unchanged (same : next.symbols = image.symbols) (none : edit.symbol? answer = none) :
      next.symbols.indexOf? name = .none ↔ name ∉ names ++ (edit.symbol? answer).toList := by
    rw [same, none]
    simpa using before
  cases step with
  | refused edit e | refusedText edit e => exact unchanged rfl (edit.symbol?_error e)
  | addedString | addedSection | linked | editedHeader | missedSection | editedSection =>
    exact unchanged rfl rfl
  | finalized answer next outcome => exact unchanged (alike_of_finalize outcome).symbols rfl
  | addedSymbol other symbol checked stored =>
    rw [indexOf?_pushSymbol]
    by_cases same : other = name
    · simp [Edit.symbol?, same, named]
    · simp [Edit.symbol?, same, before, Ne.symm same]

namespace Run

theorem indexOf?_section_eq_none_iff (run : Run) (name : String) :
    run.image.sections.indexOf? name = none ↔ name ∉ run.sections.map Prod.fst := by
  rw [run.wellFormed.sections.indexOf?_eq_none_iff, run.listing]

theorem indexOf?_symbol_eq_none_iff (run : Run) {name : String} (named : name ≠ "") :
    run.image.symbols.indexOf? name = none ↔ name ∉ run.symbolNames := by
  induction run using induction with
  | start config => simp [symbolNames, history, image, Edit.applyAll, Image.ofConfig, Image.pushSection,
      SymbolTable.indexOf?, named]
  | next run edit ih =>
    rw [image_extend, symbolNames_extend]
    exact (Image.step_apply edit run.image).symbolNames named ih

theorem unusedSymbol_iff (run : Run) (name : String) :
    name = "" ∨ run.image.symbols.indexOf? name = none ↔ name = "" ∨ name ∉ run.symbolNames := by
  by_cases unnamed : name = ""
  · simp [unnamed]
  · simp only [unnamed, false_or, run.indexOf?_symbol_eq_none_iff unnamed]

end Run

end Elf64
