import Mathlib.Algebra.Order.BigOperators.Group.List
import Mathlib.Algebra.Order.Group.Nat
import Mathlib.Algebra.Ring.Nat
import Elf64.Proofs.Views

/-! Additions of different kinds.

Sections with their links, symbols, and texts are added independently of each other: they share nothing
but the string table, where a name gets the next free offset. So what the additions of one kind answer
and leave does not depend on the other additions between them, except for offsets, as long as the
string table is not full (`Run.only_agrees`). -/

set_option autoImplicit false

namespace Elf64

/-! ## Kinds -/

inductive Edit.Kind where
  | sections
  | symbols
  | texts
  deriving DecidableEq, Repr

def Edit.kind? : Edit → Option Edit.Kind
  | addSection _ _ _ | link _ _ => some .sections
  | addSymbol _ _ => some .symbols
  | addString _ => some .texts
  | editHeader _ | editSection _ _ | finalize => none

def SectionHeader.nameless (header : SectionHeader) : SectionHeader := { header with name := 0 }

def Section.nameless (entry : Section) : Section := { entry with header := entry.header.nameless }

def Symbol.nameless (symbol : Symbol) : Symbol := { symbol with name := 0 }

-- A field other than the name that is stored in both hides nothing and shows nothing new.
theorem Section.nameless_store (f : SectionHeader → SectionHeader)
    (blind : ∀ header, (f header).nameless = f header.nameless) :
    Fieldwise Section.nameless fun entry => { entry with header := f entry.header } := by
  intro a b same
  obtain ⟨name, header, contents⟩ := Section.mk.inj same
  exact Section.mk.injEq .. ▸ ⟨name, by rw [blind, blind, header], contents⟩

/-- Everything but the texts and the offsets at which names are found. -/
def View.nameless : View where
  header := id
  entry := Section.nameless
  strings table := { size := table.size }
  symbol := Symbol.nameless
  kind a b same := by
    obtain rfl : a = b := same
    exact ⟨rfl, rfl⟩
  tableOffset offset a b same := by
    obtain rfl : a = b := same
    rfl
  counts count index a b same := by
    obtain rfl : a = b := same
    rfl
  name a b same := (Section.mk.inj same).1
  checked a b same := by
    obtain ⟨-, type, -, addr, -, -, -, -, addralign, -⟩ := SectionHeader.mk.inj (Section.mk.inj same).2.1
    exact ⟨type, addr, addralign⟩
  length a b same _ := congrArg List.length (Section.mk.inj same).2.2
  offset offset := Section.nameless_store (fun header => { header with offset }) fun _ => rfl
  size size := Section.nameless_store (fun header => { header with size }) fun _ => rfl
  link link := Section.nameless_store (fun header => { header with link }) fun _ => rfl
  info info := Section.nameless_store (fun header => { header with info }) fun _ => rfl
  textsSize a b same := (StringTable.mk.inj same).2

namespace Edit

/-- The parts of the images that additions of this kind change look the same. -/
def Kind.Alike (kind : Kind) (old new : Image) : Prop :=
  match kind with
  | sections => View.nameless.sections new.sections = View.nameless.sections old.sections
  | symbols => View.nameless.symbols new.symbols = View.nameless.symbols old.symbols
  | texts => True

/-- An answer without the offset of a text. -/
def plain : Edit → Except Error Answer → Except Error Answer
  | addString _, .ok _ => .ok .done
  | _, answer => answer

/-- The bytes that an addition takes up in the string table. -/
def room : Edit → Except Error Answer → Nat
  | addString text, .ok _ => StringTable.room text
  | addSection name _ _, .ok _ => StringTable.room name
  | addSymbol name _, .ok _ => if name = "" then 0 else StringTable.room name
  | _, _ => 0

def totalRoom (replies : List (Edit × Except Error Answer)) : Nat :=
  (replies.map fun entry => entry.1.room entry.2).sum

namespace Kind

variable {kind : Kind} {old new next : Image}

theorem Alike.refl (kind : Kind) (image : Image) : kind.Alike image image := by
  cases kind <;> trivial

theorem Alike.symm (alike : kind.Alike old new) : kind.Alike new old := by
  cases kind with
  | sections | symbols => exact Eq.symm alike
  | texts => trivial

theorem Alike.trans (first : kind.Alike old new) (second : kind.Alike new next) : kind.Alike old next := by
  cases kind with
  | sections | symbols => exact Eq.trans second first
  | texts => trivial

theorem Alike.of_tables (sections : new.sections = old.sections) (symbols : new.symbols = old.symbols) :
    kind.Alike old new := by
  cases kind with
  | sections => exact congrArg View.nameless.sections sections
  | symbols => exact congrArg View.nameless.symbols symbols
  | texts => trivial

end Kind

theorem room_error (edit : Edit) (e : Error) : edit.room (.error e) = 0 := by
  cases edit <;> rfl

theorem room_plain (edit : Edit) (answer : Except Error Answer) :
    edit.room (edit.plain answer) = edit.room answer := by
  cases edit <;> cases answer <;> rfl

end Edit

/-! ## One addition -/

-- As long as there is room, only a zero in the text is in the way of storing it.
theorem StringTable.check_congr {old new : StringTable} (small : old.size < 0x100000000)
    (small' : new.size < 0x100000000) (text : String) : new.check text = old.check text := by
  have fits (table : StringTable) (small : table.size < 0x100000000) :
      (FixedInt.count table.size .word).check = .ok () :=
    (FixedInt.check_count_iff table.size .word).mpr small
  simp only [StringTable.check, fits old small, fits new small']

namespace Image

variable {image old new next : Image} {edit : Edit} {answer : Except Error Answer} {kind other : Edit.Kind}

theorem Step.strings_size (step : image.Step edit answer next) :
    next.strings.size = image.strings.size + edit.room answer := by
  cases step with
  | refused edit e | refusedText edit e =>
    rw [edit.room_error]
    rfl
  | addedString | addedSection | linked | editedHeader | editedSection | missedSection => rfl
  | addedSymbol name symbol =>
    rw [pushSymbol_eq, Edit.room]
    by_cases unnamed : name = "" <;> simp [unnamed]
  | finalized answer next outcome =>
    rw [(alike_of_finalize outcome).strings]
    rfl

-- What an addition leaves to other kinds, it leaves alone.
theorem Step.alike_of_ne (step : image.Step edit answer next) (here : edit.kind? = some other)
    (apart : other ≠ kind) : kind.Alike image next := by
  cases step with
  | refused | refusedText | addedString => exact .of_tables rfl rfl
  | addedSection name header contents =>
    obtain rfl := Option.some.inj here
    cases kind with
    | sections => contradiction
    | symbols => rfl
    | texts => trivial
  | linked source target i =>
    obtain rfl := Option.some.inj here
    cases kind with
    | sections => contradiction
    | symbols => rfl
    | texts => trivial
  | addedSymbol name symbol =>
    obtain rfl := Option.some.inj here
    cases kind with
    | symbols => contradiction
    | sections => exact congrArg View.nameless.sections (image.sections_pushSymbol name symbol)
    | texts => trivial
  | editedHeader | editedSection | missedSection | finalized => contradiction

theorem addString_alike (small : old.strings.size < 0x100000000)
    (small' : new.strings.size < 0x100000000) (text : String) :
    ((new.addString text).1.map fun _ => Answer.done) = (old.addString text).1.map fun _ => Answer.done := by
  simp only [addString, StringTable.add, StringTable.check_congr small small' text]
  cases old.strings.check text <;> rfl

theorem addSection_alike (alike : Edit.Kind.sections.Alike old new) (small : old.strings.size < 0x100000000)
    (small' : new.strings.size < 0x100000000) (name : String) (header : SectionHeader) (contents : Bytes) :
    (new.addSection name header contents).1 = (old.addSection name header contents).1 ∧
      Edit.Kind.sections.Alike (old.addSection name header contents).2
        (new.addSection name header contents).2 := by
  rw [addSection_eq, addSection_eq, View.sections_check alike name rfl, View.sections_size alike,
    StringTable.check_congr small small']
  refine afterChecks_related Edit.Kind.sections.Alike alike alike fun _ => ?_
  exact View.sections_push alike rfl

theorem addSymbol_alike (alike : Edit.Kind.symbols.Alike old new) (small : old.strings.size < 0x100000000)
    (small' : new.strings.size < 0x100000000) (name : String) (symbol : Symbol) :
    (new.addSymbol name symbol).1 = (old.addSymbol name symbol).1 ∧
      Edit.Kind.symbols.Alike (old.addSymbol name symbol).2 (new.addSymbol name symbol).2 := by
  rw [addSymbol_eq, addSymbol_eq, View.symbols_check alike, View.symbols_size alike,
    StringTable.check_congr small small']
  refine afterChecks_related Edit.Kind.symbols.Alike alike alike fun _ => ?_
  rw [pushSymbol_eq, pushSymbol_eq]
  apply View.symbols_push alike
  · split <;> rfl
  · split <;> rfl

theorem link_alike (alike : Edit.Kind.sections.Alike old new) (source target : String) :
    (new.link source target).1 = (old.link source target).1 ∧
      Edit.Kind.sections.Alike (old.link source target).2 (new.link source target).2 := by
  obtain ⟨answers, linked⟩ := View.sections_link alike source target
  rw [link_eq, link_eq]
  exact ⟨answers, linked⟩

/-- An addition answers the same and does the same, apart from offsets, to images that look the same
in what its kind changes. -/
theorem apply_alike (alike : kind.Alike old new) (here : edit.kind? = some kind)
    (small : old.strings.size < 0x100000000) (small' : new.strings.size < 0x100000000) :
    edit.plain (edit.apply new).1 = edit.plain (edit.apply old).1 ∧
      kind.Alike (edit.apply old).2 (edit.apply new).2 := by
  cases edit with
  | editHeader | editSection | finalize => contradiction
  | addString text =>
    obtain rfl := Option.some.inj here
    refine ⟨?_, trivial⟩
    have plain (image : Image) : (Edit.addString text).plain ((Edit.addString text).apply image).1 =
        (image.addString text).1.map fun _ => Answer.done := by
      rw [Edit.apply, Outcome.fst_map]
      cases (image.addString text).1 <;> rfl
    rw [plain, plain, addString_alike small small']
  | addSection name header contents =>
    obtain rfl := Option.some.inj here
    obtain ⟨answers, left⟩ := addSection_alike alike small small' name header contents
    simp only [Edit.apply, Outcome.fst_map, Outcome.snd_map, answers]
    exact ⟨trivial, left⟩
  | addSymbol name symbol =>
    obtain rfl := Option.some.inj here
    obtain ⟨answers, left⟩ := addSymbol_alike alike small small' name symbol
    simp only [Edit.apply, Outcome.fst_map, Outcome.snd_map, answers]
    exact ⟨trivial, left⟩
  | link source target =>
    obtain rfl := Option.some.inj here
    obtain ⟨answers, left⟩ := link_alike alike source target
    simp only [Edit.apply, Outcome.fst_map, Outcome.snd_map, answers]
    exact ⟨trivial, left⟩

end Image

namespace Run

/-! ## The additions of one kind -/

/-- The changes with their answers, without the offsets of texts. -/
def replies (run : Run) : List (Edit × Except Error Answer) :=
  run.history.map fun entry => (entry.1, entry.1.plain entry.2)

def repliesOf (run : Run) (kind : Edit.Kind) : List (Edit × Except Error Answer) :=
  run.replies.filter fun entry => entry.1.kind? = some kind

/-- Every change is an addition. -/
def OnlyAdds (run : Run) : Prop := ∀ edit ∈ run.edits, edit.kind?.isSome

/-- The run without the additions of other kinds. -/
def only (run : Run) (kind : Edit.Kind) : Run :=
  { run with edits := run.edits.filter fun edit => edit.kind? = some kind }

theorem replies_extend (run : Run) (edit : Edit) :
    (run.extend edit).replies = run.replies ++ [(edit, edit.plain (edit.apply run.image).1)] := by
  rw [replies, history_extend, List.map_append]
  rfl

theorem repliesOf_extend (run : Run) (edit : Edit) (kind : Edit.Kind) :
    (run.extend edit).repliesOf kind = run.repliesOf kind ++
      if edit.kind? = some kind then [(edit, edit.plain (edit.apply run.image).1)] else [] := by
  rw [repliesOf, replies_extend, List.filter_append]
  by_cases here : edit.kind? = some kind <;> simp [here, repliesOf]

theorem onlyAdds_extend {run : Run} {edit : Edit} :
    (run.extend edit).OnlyAdds ↔ run.OnlyAdds ∧ edit.kind?.isSome := by
  simp [OnlyAdds, extend, or_imp, forall_and]

theorem only_extend (run : Run) (edit : Edit) (kind : Edit.Kind) : (run.extend edit).only kind =
    if edit.kind? = some kind then (run.only kind).extend edit else run.only kind := by
  by_cases here : edit.kind? = some kind <;> simp [only, extend, here]

theorem strings_size_extend (run : Run) (edit : Edit) : (run.extend edit).image.strings.size =
    run.image.strings.size + edit.room (edit.apply run.image).1 := by
  rw [image_extend]
  exact (Image.step_apply edit run.image).strings_size

-- The size of the string table can be told from the replies.
theorem strings_size (run : Run) : run.image.strings.size =
    (Image.ofConfig run.config).strings.size + Edit.totalRoom run.replies := by
  induction run using induction with
  | start config => rfl
  | next run edit ih =>
    rw [strings_size_extend, replies_extend, Edit.totalRoom, List.map_append, List.sum_append, ih,
      Nat.add_assoc]
    simp [Edit.room_plain, Edit.totalRoom, extend]

theorem strings_size_only_le {run : Run} {kind : Edit.Kind}
    (same : (run.only kind).replies = run.repliesOf kind) :
    (run.only kind).image.strings.size ≤ run.image.strings.size := by
  have part := (List.filter_sublist (p := fun entry : Edit × Except Error Answer => entry.1.kind? = some kind)
    (l := run.replies)).map fun entry => entry.1.room entry.2
  rw [strings_size, strings_size, same]
  exact Nat.add_le_add_left (part.sum_le_sum fun _ _ => Nat.zero_le _) _

/-- What the additions of one kind answer and leave depends on these additions alone. -/
theorem only_agrees (run : Run) (kind : Edit.Kind) (adds : run.OnlyAdds)
    (small : run.image.strings.size < 0x100000000) :
    (run.only kind).replies = run.repliesOf kind ∧ kind.Alike (run.only kind).image run.image := by
  induction run using induction with
  | start config => exact ⟨rfl, .refl kind _⟩
  | next run edit ih =>
    obtain ⟨before, last⟩ := onlyAdds_extend.mp adds
    obtain ⟨other, here⟩ := Option.isSome_iff_exists.mp last
    have smaller : run.image.strings.size < 0x100000000 := by
      rw [strings_size_extend] at small
      exact Nat.lt_of_le_of_lt (Nat.le_add_right _ _) small
    obtain ⟨replies, alike⟩ := ih before smaller
    rw [only_extend, repliesOf_extend]
    by_cases same : edit.kind? = some kind
    · have enough := Nat.lt_of_le_of_lt (strings_size_only_le replies) smaller
      obtain ⟨answer, left⟩ := Image.apply_alike alike same enough smaller
      rw [if_pos same, if_pos same, replies_extend, image_extend, image_extend, replies, answer]
      exact ⟨rfl, left⟩
    · have apart : other ≠ kind := fun equal => same (equal ▸ here)
      have kept := (Image.step_apply edit run.image).alike_of_ne here apart
      rw [if_neg same, if_neg same, List.append_nil, image_extend]
      exact ⟨replies, alike.trans kept⟩

end Run

end Elf64
