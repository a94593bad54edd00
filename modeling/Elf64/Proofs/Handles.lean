import Elf64.Proofs.Refusals

/-! Numbers that are given out.

Sections and symbols are referred to by index and texts by offset, and nothing keeps track of who holds
such a number. It need not: a number that has been given out leads to the same thing after all further
changes (`Run.handles`), so that the two tables are found wherever they are looked up. -/

set_option autoImplicit false

namespace Elf64

/-- What the old look-up finds, the new one finds too. -/
def Retains {α β : Type} (old new : α → Option β) : Prop :=
  ∀ key found, old key = some found → new key = some found

theorem Retains.refl {α β : Type} (lookup : α → Option β) : Retains lookup lookup :=
  fun _ _ here => here

theorem Retains.trans {α β : Type} {old new next : α → Option β} (first : Retains old new)
    (second : Retains new next) : Retains old next :=
  fun key found here => second key found (first key found here)

/-! ## The tables -/

theorem StringTable.retains_push (table : StringTable) (text : String) :
    Retains table.get? (table.push text).get? := by
  intro offset found here
  rw [get?_eq_some_iff] at here ⊢
  exact table.entries_subset_push text here

namespace SectionTable

variable {table : SectionTable} {entry : Section}

theorem indexOf?_retains_push (fresh : table.indexOf? entry.name = none) :
    Retains table.indexOf? (table.push entry).indexOf? := by
  intro name i here
  rw [indexOf?_push, if_neg, here]
  -- The new name was not in the index.
  rintro rfl
  rw [fresh] at here
  contradiction

theorem nameOf?_retains_push (table : SectionTable) (entry : Section) :
    Retains table.nameOf? (table.push entry).nameOf? := by
  intro i name here
  rw [nameOf?_push, if_neg (Nat.ne_of_lt (lt_size_of_nameOf? here)), here]

end SectionTable

namespace SymbolTable

variable {table : SymbolTable} {name : String} {symbol : Symbol}

theorem indexOf?_retains_push (unused : name = "" ∨ table.indexOf? name = none) :
    Retains table.indexOf? (table.push name symbol).indexOf? := by
  intro other i here
  rw [indexOf?_push, if_neg, here]
  rintro ⟨named, rfl⟩
  rw [unused.resolve_left named] at here
  contradiction

theorem get?_retains_push (table : SymbolTable) (name : String) (symbol : Symbol) :
    Retains table.get? (table.push name symbol).get? := by
  intro i found here
  rw [get?_eq] at here ⊢
  obtain ⟨bound, -⟩ := List.getElem?_eq_some_iff.mp here
  rw [symbols_push, List.getElem?_append_left bound, here]

theorem get?_push_size (table : SymbolTable) (name : String) (symbol : Symbol) :
    (table.push name symbol).get? table.size = some symbol := by
  rw [get?_eq, symbols_push, ← length_symbols, List.getElem?_concat_length]

end SymbolTable

namespace Image

/-- Every look-up in the old image has the same result in the new one. -/
structure Keeps (old new : Image) : Prop where
  indexOf? : Retains old.sections.indexOf? new.sections.indexOf?
  nameOf? : Retains old.sections.nameOf? new.sections.nameOf?
  symbolIndex : Retains old.symbols.indexOf? new.symbols.indexOf?
  symbol : Retains old.symbols.get? new.symbols.get?
  text : Retains old.strings.get? new.strings.get?

variable {image old new next : Image} {edit : Edit} {answer : Except Error Answer}

theorem Keeps.refl (image : Image) : image.Keeps image :=
  ⟨.refl _, .refl _, .refl _, .refl _, .refl _⟩

theorem Keeps.trans (first : old.Keeps new) (second : new.Keeps next) : old.Keeps next :=
  ⟨first.indexOf?.trans second.indexOf?, first.nameOf?.trans second.nameOf?,
    first.symbolIndex.trans second.symbolIndex, first.symbol.trans second.symbol,
    first.text.trans second.text⟩

theorem Alike.keeps (alike : old.Alike new) : old.Keeps new where
  indexOf? name i here := (alike.sections.indexOf? name).trans here
  nameOf? i name here := (alike.sections.nameOf? i).trans here
  symbolIndex := by rw [alike.symbols]; exact .refl _
  symbol := by rw [alike.symbols]; exact .refl _
  text := by rw [alike.strings]; exact .refl _

theorem keeps_pushSection {name : String} {header : SectionHeader}
    (checked : image.sections.check name header = .ok ()) (contents : Bytes) :
    image.Keeps (image.pushSection name header contents) :=
  { Keeps.refl image with
    indexOf? := SectionTable.indexOf?_retains_push (SectionTable.check_eq_ok checked).1
    nameOf? := image.sections.nameOf?_retains_push _
    text := image.strings.retains_push name }

theorem keeps_pushSymbol {name : String} {symbol : Symbol}
    (checked : image.symbols.check name symbol = .ok ()) :
    image.Keeps (image.pushSymbol name symbol) := by
  have unused := (SymbolTable.check_eq_ok_iff.mp checked).1
  rw [pushSymbol_eq]
  exact { Keeps.refl image with
    symbolIndex := SymbolTable.indexOf?_retains_push unused
    symbol := image.symbols.get?_retains_push name _
    text := by
      split
      · exact .refl _
      · exact image.strings.retains_push name }

/-- No change takes back a number, whether it succeeds or not. -/
theorem Step.keeps (step : image.Step edit answer next) : image.Keeps next := by
  cases step with
  | refused => exact .refl image
  | refusedText | editedHeader | missedSection | linked => exact { Keeps.refl image with }
  | addedString text => exact { Keeps.refl image with text := image.strings.retains_push text }
  | addedSection name header contents checked => exact keeps_pushSection checked contents
  | addedSymbol name symbol checked => exact keeps_pushSymbol checked
  | editedSection name f i =>
    exact { Keeps.refl image with
      indexOf? := by
        intro name i here
        rwa [SectionTable.indexOf?, SectionTable.index_modify]
      nameOf? := by
        intro i name here
        rwa [SectionTable.nameOf?_modify] }
  | finalized answer next outcome => exact (alike_of_finalize outcome).keeps

end Image

/-! ## Answers -/

/-- The number that a change has answered leads to what the change has added. -/
def Edit.Leads (image : Image) : Edit → Except Error Answer → Prop
  | addString text, .ok (.number offset) => image.strings.get? offset = some text
  | addSection name _ _, .ok (.number i) =>
    image.sections.indexOf? name = some i ∧ image.sections.nameOf? i = some name
  | addSymbol name symbol, .ok (.number i) => ∃ offset : UInt32,
    image.symbols.get? i = some { symbol with name := offset } ∧
      (name ≠ "" → image.symbols.indexOf? name = some i ∧ image.strings.get? offset.toNat = some name)
  | _, _ => True

theorem Edit.leads_error (image : Image) (edit : Edit) (e : Error) : edit.Leads image (.error e) := by
  cases edit <;> trivial

namespace Image

variable {image old new next : Image} {edit : Edit} {answer : Except Error Answer}

theorem Keeps.leads (keeps : old.Keeps new) (leads : edit.Leads old answer) : edit.Leads new answer := by
  rcases answer with e | answer
  · exact edit.leads_error new e
  · cases edit with
    | link | editHeader | editSection | finalize => trivial
    | addString text =>
      cases answer with
      | done | found => trivial
      | number offset => exact keeps.text offset text leads
    | addSection name header contents =>
      cases answer with
      | done | found => trivial
      | number i => exact ⟨keeps.indexOf? name i leads.1, keeps.nameOf? i name leads.2⟩
    | addSymbol name symbol =>
      cases answer with
      | done | found => trivial
      | number i =>
        obtain ⟨offset, here, named⟩ := leads
        refine ⟨offset, keeps.symbol i _ here, fun nonempty => ?_⟩
        obtain ⟨index, text⟩ := named nonempty
        exact ⟨keeps.symbolIndex name i index, keeps.text _ name text⟩

theorem leads_pushSymbol (wellFormed : image.WellFormed) {name : String}
    (stored : name ≠ "" → image.strings.check name = .ok ()) (symbol : Symbol) :
    (Edit.addSymbol name symbol).Leads (image.pushSymbol name symbol)
      (.ok (.number image.symbols.size)) := by
  by_cases unnamed : name = ""
  · subst unnamed
    rw [pushSymbol_unnamed]
    exact ⟨symbol.name, image.symbols.get?_push_size "" symbol, fun named => absurd rfl named⟩
  · rw [pushSymbol_named image unnamed]
    refine ⟨_, image.symbols.get?_push_size name _, fun named => ⟨?_, ?_⟩⟩
    · rw [SymbolTable.indexOf?_push, if_pos ⟨named, rfl⟩]
    · exact StringTable.get?_eq_some_iff.mpr (wellFormed.strings.stored (stored named))

theorem Step.leads (wellFormed : image.WellFormed) (step : image.Step edit answer next) :
    edit.Leads next answer := by
  cases step with
  | refused edit e | refusedText edit e => exact edit.leads_error _ e
  | linked | editedHeader | editedSection | missedSection | finalized => trivial
  | addedString text checked =>
    show (image.strings.push text).get? image.strings.size = some text
    rw [StringTable.get?_eq_some_iff, StringTable.entries_push, wellFormed.strings.size]
    exact List.mem_append_right _ List.mem_cons_self
  | addedSection name header contents =>
    constructor
    · exact (SectionTable.indexOf?_push _ _ name).trans (if_pos rfl)
    · exact (SectionTable.nameOf?_push _ _ _).trans (if_pos rfl)
  | addedSymbol name symbol checked stored => exact leads_pushSymbol wellFormed stored symbol

end Image

/-! ## Looking up the two tables -/

/-- A section was looked up by a name that no section has. -/
def Error.isLookup : Error → Bool
  | unknownSection _ => true
  | _ => false

theorem SectionHeader.isLookup_of_validate {header : SectionHeader} {e : Error}
    (refused : header.validate = .error e) : e.isLookup = false := by
  rcases bind_eq_error refused with type | ⟨-, -, alignment⟩
  · unfold SectionType.check at type
    split at type <;> cases type
    rfl
  · simp only [checkAlignment] at alignment
    repeat' split at alignment
    all_goals cases alignment
    all_goals rfl

theorem isLookup_of_check {v : FixedInt} {e : Error} (refused : v.check = .error e) :
    e.isLookup = false := by
  unfold FixedInt.check at refused
  split at refused <;> cases refused
  rfl

theorem FileHeader.isLookup_of_close {header : FileHeader} {count index : Nat} {e : Error}
    (refused : header.close count index = .error e) : e.isLookup = false := by
  rcases bind_eq_error refused with type | ⟨-, -, refused⟩
  · unfold FileType.check at type
    split at type <;> cases type
    rfl
  rcases bind_eq_error refused with machine | ⟨-, -, refused⟩
  · unfold Machine.check at machine
    split at machine <;> cases machine
    rfl
  rcases bind_eq_error refused with count | ⟨-, -, refused⟩
  · exact isLookup_of_check count
  rcases bind_eq_error refused with index | ⟨-, -, refused⟩
  · exact isLookup_of_check index
  · contradiction

namespace SectionTable

variable {table : SectionTable} {e : Error}

theorem isLookup_of_validate (refused : table.validate = .error e) : e.isLookup = false := by
  unfold validate at refused
  generalize table.headers = headers at refused
  induction headers with
  | nil => contradiction
  | cons first rest ih =>
    have refused : (first.validate >>= fun _ => rest.forM SectionHeader.validate) = .error e := refused
    rcases bind_eq_error refused with here | ⟨-, -, later⟩
    · exact SectionHeader.isLookup_of_validate here
    · exact ih later

-- A link without a target is not looked up by the name of its source.
theorem isLookup_of_applyLinks {links : List (Nat × String)}
    (refused : (applyLinks links table).1 = .error e) : e.isLookup = false := by
  induction links generalizing table with
  | nil => contradiction
  | cons link rest ih =>
    rw [applyLinks] at refused
    split at refused
    · cases refused
      rfl
    · exact ih refused

end SectionTable

theorem isLookup_of_placeAll {sizeOf : Section → Nat} {placed : Array Section} {cursor : Nat}
    {entries : List Section} {e : Error} (refused : (placeAll sizeOf placed cursor entries).1 = .error e) :
    e.isLookup = false := by
  induction entries generalizing placed cursor with
  | nil => contradiction
  | cons entry rest ih =>
    rw [placeAll] at refused
    split at refused
    · exact ih refused
    · next failed =>
      have reason := entry.header.place_answer (sizeOf entry) cursor
      rw [failed] at reason
      dsimp only at reason
      cases refused
      repeat' split at reason
      all_goals cases reason
      all_goals rfl

namespace Image

variable {image : Image} {e : Error}

theorem isLookup_of_storeFirstGlobal (wellFormed : image.WellFormed)
    (refused : image.storeFirstGlobal.1 = .error e) : e.isLookup = false := by
  have found := (wellFormed.sections.indexed symtabName 1).mpr wellFormed.symtab
  rw [storeFirstGlobal, SectionTable.require_eq_ok_iff.mpr found, Outcome.andThen_ok,
    Outcome.fst_andThen] at refused
  rcases bind_eq_error refused with check | ⟨-, -, refused⟩
  · exact isLookup_of_check check
  · contradiction

theorem isLookup_of_layOut (refused : image.layOut.1 = .error e) : e.isLookup = false := by
  simp only [layOut, Outcome.fst_andThen] at refused
  rcases bind_eq_error refused with placing | ⟨size, -, refused⟩
  · exact isLookup_of_placeAll placing
  · split at refused <;> cases refused
    rfl

theorem isLookup_of_close (wellFormed : image.WellFormed) {size : Nat}
    (refused : (image.close size).1 = .error e) : e.isLookup = false := by
  have found := (wellFormed.sections.indexed strtabName 2).mpr wellFormed.strtab
  simp only [close] at refused
  rw [SectionTable.require_eq_ok_iff.mpr found, Outcome.andThen_ok, Outcome.fst_andThen] at refused
  rcases bind_eq_error refused with closing | ⟨_, _, done⟩
  · exact FileHeader.isLookup_of_close closing
  · cases done

/-- Whatever else is in the way of finalizing, the two tables are found. -/
theorem isLookup_of_finalize (wellFormed : image.WellFormed) (refused : image.finalize.1 = .error e) :
    e.isLookup = false := by
  rw [finalize_answer] at refused
  rcases bind_eq_error refused with invalid | ⟨-, -, refused⟩
  · exact SectionTable.isLookup_of_validate invalid
  rcases bind_eq_error refused with links | ⟨-, -, refused⟩
  · exact SectionTable.isLookup_of_applyLinks links
  rcases bind_eq_error refused with first | ⟨-, -, refused⟩
  · exact isLookup_of_storeFirstGlobal wellFormed first
  rcases bind_eq_error refused with layout | ⟨size, -, refused⟩
  · exact isLookup_of_layOut layout
  · exact isLookup_of_close wellFormed refused

theorem isLookup_of_serialize (wellFormed : image.WellFormed) {reserves : Nat → Bool}
    (refused : image.serialize reserves = .error e) : e.isLookup = false := by
  cases finalSize : image.finalSize with
  | none =>
    simp only [serialize, finalSize] at refused
    cases refused
    rfl
  | some size =>
    rw [serialize_eq wellFormed finalSize reserves] at refused
    split at refused <;> cases refused
    rfl

end Image

namespace Run

/-- The run goes on with these changes. -/
def followedBy (run : Run) (later : List Edit) : Run := { run with edits := run.edits ++ later }

theorem followedBy_cons (run : Run) (edit : Edit) (rest : List Edit) :
    run.followedBy (edit :: rest) = (run.extend edit).followedBy rest := by
  simp [followedBy, extend]

theorem keeps_followedBy (run : Run) (later : List Edit) :
    run.image.Keeps (run.followedBy later).image := by
  induction later generalizing run with
  | nil =>
    rw [followedBy, List.append_nil]
    exact .refl _
  | cons edit rest ih =>
    have first := (Image.step_apply edit run.image).keeps
    rw [← run.image_extend] at first
    rw [followedBy_cons]
    exact first.trans (ih (run.extend edit))

theorem leads_history (run : Run) {edit : Edit} {answer : Except Error Answer}
    (member : (edit, answer) ∈ run.history) : edit.Leads run.image answer := by
  induction run using induction with
  | start config => contradiction
  | next run last ih =>
    have step := Image.step_apply last run.image
    rw [history_extend, List.mem_append] at member
    rw [image_extend]
    rcases member with before | now
    · exact step.keeps.leads (ih before)
    · obtain ⟨rfl, rfl⟩ := Prod.mk.inj (List.mem_singleton.mp now)
      exact step.leads run.wellFormed

/-- Whatever is done to an image, a number that it has given out keeps leading to the same thing, and
the two tables stay where they are, so that looking them up does not fail. -/
theorem handles (run : Run) (later : List Edit) :
    let image := (run.followedBy later).image
    run.image.Keeps image ∧
    (∀ edit answer, (edit, answer) ∈ run.history → edit.Leads image answer) ∧
    (∀ name i, image.sections.indexOf? name = some i ↔ image.sections.nameOf? i = some name) ∧
    image.sections.indexOf? symtabName = some 1 ∧ image.sections.indexOf? strtabName = some 2 ∧
    (∀ e, image.finalize.1 = .error e → e.isLookup = false) ∧
    ∀ reserves e, image.serialize reserves = .error e → e.isLookup = false := by
  intro image
  have keeps : run.image.Keeps image := run.keeps_followedBy later
  have wellFormed : image.WellFormed := (run.followedBy later).wellFormed
  have indexed := wellFormed.sections.indexed
  exact ⟨keeps, fun edit answer member => keeps.leads (run.leads_history member), indexed,
    (indexed symtabName 1).mpr wellFormed.symtab, (indexed strtabName 2).mpr wellFormed.strtab,
    fun e => Image.isLookup_of_finalize wellFormed, fun _ _ => Image.isLookup_of_serialize wellFormed⟩

end Run

end Elf64
