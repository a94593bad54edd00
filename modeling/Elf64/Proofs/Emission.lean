import Elf64.Proofs.Acceptance
import Elf64.Proofs.Writer

/-! What a writer has emitted.

A program asks a writer for one thing after the other and goes on after failures. A number that does not fit
is refused without a trace. The position never runs ahead of the output, and until the sink fails both are
what the requests that were met have made of them (`Writer.emission`). -/

set_option autoImplicit false

namespace Elf64.Output

/-- A sink that has stored the same and takes everything. -/
def Sink.unlimited (sink : Sink) : Sink := { sink with capacity := none, chunk := none }

namespace Writer

variable {writer : Writer} {bytes : Bytes}

/-! ## Requests -/

/-- What a program asks of a writer. A number may be too large for its field; the numbers of a header or a
symbol fit as they are. -/
inductive Request where
  | value (v : FixedInt)
  | bytes (content : Bytes)
  | padTo (target : Nat)
  | fileHeader (header : FileHeader)
  | sectionHeader (header : SectionHeader)
  | symbol (entry : Symbol)

namespace Request

def action : Request → Action
  | .value v => .value v
  | .bytes content => .bytes content
  | .padTo target => .padTo target
  | .fileHeader header => .record header.record
  | .sectionHeader header => .record header.record
  | .symbol entry => .record entry.record

/-- The bytes that are asked for, where so many have been written before. -/
def encoding (order : ByteOrder) (position : Nat) : Request → Bytes
  | .value v => { v with order }.bytes
  | .bytes content => content
  | .padTo target => .replicate (target - position) 0
  | .fileHeader header => header.encode order
  | .sectionHeader header => header.encode order
  | .symbol entry => entry.encode order

def fits : Request → Bool
  | value v => decide v.Fits
  | _ => true

/-- The bytes of requests that are met one after the other. -/
def encodings (order : ByteOrder) (requests : List Request) : Bytes :=
  requests.foldl (fun before request => before ++ request.encoding order before.length) []

theorem encodings_concat (order : ByteOrder) (requests : List Request) (request : Request) :
    encodings order (requests ++ [request]) =
      encodings order requests ++ request.encoding order (encodings order requests).length := by
  simp [encodings]

end Request

def request (writer : Writer) (request : Request) : Outcome Writer Unit := writer.perform request.action

/-- The writer after these requests, whether they are met or not. -/
def after (writer : Writer) (requests : List Request) : Writer :=
  requests.foldl (fun writer request => (writer.request request).2) writer

def answers (writer : Writer) : List Request → List (Except Error Unit)
  | [] => []
  | request :: rest => (writer.request request).1 :: answers (writer.request request).2 rest

/-- Those of the requests that are met. -/
def met (writer : Writer) (requests : List Request) : List Request :=
  (Outcome.accepted request writer requests).map Prod.fst

/-- The sink is to blame. -/
def sinkFailed : Except Error Unit → Bool
  | .error e => e.kind = .sinkWriteFailure
  | .ok () => false

def Undisturbed (writer : Writer) (requests : List Request) : Prop :=
  ∀ answer ∈ writer.answers requests, sinkFailed answer = false

variable {request : Request} {requests : List Request}

theorem after_concat (writer : Writer) (requests : List Request) (request : Request) :
    writer.after (requests ++ [request]) = ((writer.after requests).request request).2 := by
  simp [after]

theorem answers_concat (writer : Writer) (requests : List Request) (request : Request) :
    writer.answers (requests ++ [request]) =
      writer.answers requests ++ [((writer.after requests).request request).1] := by
  induction requests generalizing writer with
  | nil => rfl
  | cons first rest ih => exact congrArg _ (ih _)

theorem met_concat (writer : Writer) (requests : List Request) (request : Request) :
    writer.met (requests ++ [request]) = writer.met requests ++
      (((writer.after requests).request request).1.toOption.map fun _ => request).toList := by
  rw [met, Outcome.accepted_concat, List.map_append]
  show _ ++ List.map Prod.fst (Option.map (request, ·)
    ((writer.after requests).request request).1.toOption).toList = _
  cases ((writer.after requests).request request).1 <;> rfl

theorem undisturbed_concat : writer.Undisturbed (requests ++ [request]) ↔
    writer.Undisturbed requests ∧ sinkFailed ((writer.after requests).request request).1 = false := by
  simp only [Undisturbed, answers_concat, List.forall_mem_append, List.forall_mem_singleton]

/-- What a request comes to: a number that does not fit is refused before it is written, and everything else
is passed on to the sink. -/
inductive Serves (writer : Writer) (request : Request) : Outcome Writer Unit → Prop where
  | refused (v : FixedInt) (misfit : request.fits = false) :
      Serves writer request (.error (.outOfRange v), writer)
  | tried (outcome : Outcome Writer Unit) (fits : request.fits = true)
      (emits : writer.Emits (request.encoding writer.order writer.position) outcome) :
      Serves writer request outcome

theorem serves_request (writer : Writer) (request : Request) :
    writer.Serves request (writer.request request) := by
  cases request with
  | value v =>
    by_cases fits : v.Fits
    · have field : (Field.number v).Fits := fits
      exact .tried _ (decide_eq_true fits) (emits_writeField field writer)
    · have refused : v.check = .error (.outOfRange v) := by rw [FixedInt.check, if_neg fits]
      have outcome : writer.request (.value v) = (.error (.outOfRange v), writer) := by
        simp only [request, Request.action, perform, writeValue, refused]
      rw [outcome]
      exact .refused v (decide_eq_false fits)
  | bytes content => exact .tried _ rfl (writer.emits_writeBytes content)
  | padTo target => exact .tried _ rfl (writer.emits_padTo target)
  | fileHeader header => exact .tried _ rfl (emits_writeRecord header.record_fits writer)
  | sectionHeader header => exact .tried _ rfl (emits_writeRecord header.record_fits writer)
  | symbol entry => exact .tried _ rfl (emits_writeRecord entry.record_fits writer)

theorem request_of_overflow {e : Error} (failed : (writer.request request).1 = .error e)
    (kind : e.kind = .encodingOverflow) : (writer.request request).2 = writer := by
  have serves := writer.serves_request request
  generalize writer.request request = outcome at serves failed ⊢
  cases serves with
  | refused => rfl
  | tried outcome fits emits =>
    cases emits with
    | whole => contradiction
    | part next counted short =>
      obtain rfl := Except.error.inj failed
      contradiction

-- The position goes up by no more than the output.
theorem position_le_of_request (writer : Writer) (request : Request) :
    writer.sink.stored.size + (writer.request request).2.position ≤
      (writer.request request).2.sink.stored.size + writer.position := by
  have serves := writer.serves_request request
  generalize writer.request request = outcome at serves ⊢
  cases serves with
  | refused => exact Nat.le_refl _
  | tried outcome fits emits =>
    cases emits with
    | whole next fits stores | part next counted short stores covered =>
      have size := stores.size
      simp only
      omega

-- Without a limit there is nothing that the sink could fail for.
theorem request_of_room_eq_none (endless : writer.sink.room = none) (request : Request) :
    sinkFailed (writer.request request).1 = false ∧ (writer.request request).2.sink.room = none := by
  have serves := writer.serves_request request
  generalize writer.request request = outcome at serves ⊢
  cases serves with
  | refused => exact ⟨rfl, endless⟩
  | tried outcome fits emits =>
    cases emits with
    | part next counted short => exact absurd endless (room_ne_none_of_short short)
    | whole next fills stores =>
      refine ⟨rfl, ?_⟩
      rw [stores.room, endless]
      rfl

/-! ## Any sequence of requests -/

theorem position_le_after (writer : Writer) (requests : List Request) :
    writer.sink.stored.size + (writer.after requests).position ≤
      (writer.after requests).sink.stored.size + writer.position := by
  induction requests generalizing writer with
  | nil => exact Nat.le_refl _
  | cons request rest ih =>
    have here := writer.position_le_of_request request
    have later := ih (writer.request request).2
    simp only [after, List.foldl_cons] at later ⊢
    omega

theorem undisturbed_of_room_eq_none (endless : writer.sink.room = none) (requests : List Request) :
    writer.Undisturbed requests := by
  induction requests generalizing writer with
  | nil => exact fun _ member => nomatch member
  | cons request rest ih =>
    obtain ⟨unfailed, still⟩ := request_of_room_eq_none endless request
    exact List.forall_mem_cons.mpr ⟨unfailed, ih still⟩

/-- The sink has stored these bytes since the writer was new, and the position is their count. -/
structure Tracks (sink : Sink) (order : ByteOrder) (bytes : Bytes) (writer : Writer) : Prop where
  order : writer.order = order
  stores : sink.Stores bytes writer.sink
  position : writer.position = bytes.length

variable {sink : Sink} {order : ByteOrder}

-- As long as the sink does not fail, what fits is what is met.
theorem tracks_after (undisturbed : Undisturbed { sink, order } requests) :
    met { sink, order } requests = requests.filter Request.fits ∧
      Tracks sink order (Request.encodings order (requests.filter Request.fits))
        (after { sink, order } requests) := by
  induction requests using List.reverseRecOn with
  | nil => exact ⟨rfl, rfl, .refl sink, rfl⟩
  | append_singleton requests request ih =>
    obtain ⟨before, unfailed⟩ := undisturbed_concat.mp undisturbed
    obtain ⟨met, tracks⟩ := ih before
    have serves := serves_request (after { sink, order } requests) request
    rw [met_concat, after_concat, met, List.filter_append]
    generalize Writer.request _ request = outcome at serves unfailed ⊢
    cases serves with
    | refused v misfit => simpa [misfit, Except.toOption] using tracks
    | tried outcome fits emits =>
      rw [tracks.order, tracks.position] at emits
      rw [List.filter_cons_of_pos fits, List.filter_nil, Request.encodings_concat]
      cases emits with
      | part => contradiction
      | whole next fills stores =>
        refine ⟨rfl, tracks.order, tracks.stores.trans stores, ?_⟩
        rw [tracks.position, List.length_append]

-- What the sink takes of the request that it fails for, is a front of what it would take without limits.
theorem cut_after (undisturbed : Undisturbed { sink, order } requests)
    (failed : sinkFailed ((after { sink, order } requests).request request).1 = true) :
    ((after { sink, order } requests).request request).2.sink.stored.toList <+:
      (after { sink := sink.unlimited, order } (requests ++ [request])).sink.stored.toList := by
  have endless : Undisturbed { sink := sink.unlimited, order } (requests ++ [request]) :=
    undisturbed_of_room_eq_none rfl _
  obtain ⟨-, tracks⟩ := tracks_after undisturbed
  obtain ⟨-, all⟩ := tracks_after endless
  have serves := serves_request (after { sink, order } requests) request
  generalize Writer.request _ request = outcome at serves failed ⊢
  cases serves with
  | refused => contradiction
  | tried outcome fits emits =>
    rw [tracks.order, tracks.position] at emits
    rw [all.stores.stored, List.filter_append, List.filter_cons_of_pos fits, List.filter_nil,
      Request.encodings_concat, ← List.append_assoc]
    cases emits with
    | whole => contradiction
    | part next counted short stores =>
      rw [stores.stored, tracks.stores.stored]
      exact (List.prefix_append_right_inj _).mpr (Sink.share_isPrefix _ _)

/-- How the output and the position of a writer stand that has been new on a sink before these requests. -/
structure Emission (sink : Sink) (order : ByteOrder) (requests : List Request) (writer : Writer) : Prop where
  position_le : sink.stored.size + writer.position ≤ writer.sink.stored.size
  /-- What does not fit is refused without a trace. -/
  refused : ∀ request e, (writer.request request).1 = .error e → e.kind = .encodingOverflow →
    (writer.request request).2 = writer
  endless : sink.room = none → Undisturbed { sink, order } requests
  /-- Until the sink fails, what fits is met. -/
  served : Undisturbed { sink, order } requests →
    met { sink, order } requests = requests.filter Request.fits
  whole : Undisturbed { sink, order } requests →
    writer.sink.stored.toList =
      sink.stored.toList ++ Request.encodings order (met { sink, order } requests) ∧
    writer.position = (Request.encodings order (met { sink, order } requests)).length
  /-- The first failure of the sink cuts short what would be there without its limits. -/
  cut : Undisturbed { sink, order } requests →
    ∀ request, sinkFailed (writer.request request).1 = true →
      (writer.request request).2.sink.stored.toList <+:
        (after { sink := sink.unlimited, order } (requests ++ [request])).sink.stored.toList

/-- The position and the output of a writer stay in step until the sink fails, and what does not fit never
reaches the output. -/
theorem emission (sink : Sink) (order : ByteOrder) (requests : List Request) :
    Emission sink order requests (after { sink, order } requests) where
  position_le := position_le_after { sink, order } requests
  refused := fun _ _ => request_of_overflow
  endless := fun endless => undisturbed_of_room_eq_none endless requests
  served := fun undisturbed => (tracks_after undisturbed).1
  whole := by
    intro undisturbed
    obtain ⟨met, tracks⟩ := tracks_after undisturbed
    rw [met]
    exact ⟨tracks.stores.stored, tracks.position⟩
  cut := fun undisturbed _ => cut_after undisturbed

-- A half that is too large, one that fits, zeros, and a number that the sink has no room for.
example :
    let writer := after { sink := { capacity := some 6, temper := .interrupting } }
      [.value (.count 0x10000 .half), .value (.half 7), .padTo 4, .value (.xword 1)]
    writer.position = 4 ∧ writer.sink.stored = #[7, 0, 0, 0, 1, 0] := by
  cbv

end Writer

end Elf64.Output
