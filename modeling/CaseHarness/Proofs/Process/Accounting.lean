import CaseHarness.Proofs.Process.Merge
import CaseHarness.Proofs.Process.Reading

/-!
# Accounting for the bytes of a capture

In every state of a capture each byte that a reader has taken from its pipe is in the
common buffer or in that reader's hand.  A reader that comes to the end of its stream
empties its hand, so a capture that ends with both streams has lost nothing.  A drain
limit abandons the readers as they are: what they hold then is lost, and that is
everything behind the last newline of a stream that has not ended.
-/

namespace CaseHarness

/-- Whether an event belongs to the reader of a stream. -/
def CaptureEvent.isReading : CaptureEvent → Bool
  | taken .. | supplied .. | advanced _ => true
  | childEnded _ | childLost _ | deadline | drainLimit => false

namespace Capture

/-- The pieces of one stream in the common buffer, in order. -/
def piecesOf (capture : Capture) (stream : Stream) : List (List UInt8) :=
  (capture.pieces.filter fun piece => piece.1 = stream).map Prod.snd

/-- The bytes that an event makes the reader of a stream take. -/
def takes (capture : Capture) (stream : Stream) (event : CaptureEvent) : List UInt8 :=
  match capture.phase, event with
  | .waiting, .taken source bytes | .draining _, .taken source bytes =>
      if source = stream then (capture.reader stream).accepted bytes else []
  | _, _ => []

/-- The bytes that events make the reader of a stream take, one after the other. -/
def takenFrom (limited : Bool) (stream : Stream) : Capture → List CaptureEvent → List UInt8
  | _, [] => []
  | capture, event :: events =>
      capture.takes stream event ++ takenFrom limited stream (capture.step limited event) events

/-- The bytes that the reader of a stream takes from its pipe during a capture. -/
def taken (limited : Bool) (events : List CaptureEvent) (stream : Stream) : List UInt8 :=
  takenFrom limited stream {} events

/-- The readers of a capture have taken these bytes, and all of them are accounted for. -/
def Accounted (taken : Stream → List UInt8) (capture : Capture) : Prop :=
  ∀ stream, Reader.Reading (taken stream) (capture.piecesOf stream) (capture.reader stream)

section Projections

variable (capture : Capture) (stream : Stream)

theorem bytesOf_eq_flatten : capture.bytesOf stream = (capture.piecesOf stream).flatten := by
  rw [bytesOf, piecesOf, List.flatMap_def]

theorem bytes_eq_flatten : capture.bytes = (capture.pieces.map Prod.snd).flatten := by
  rw [bytes, List.flatMap_def]

theorem merges_pieces : Merges capture.piecesOf (capture.pieces.map Prod.snd) :=
  merges_of_tagged capture.pieces

@[simp]
theorem reader_setReader_self (reader : Reader) :
    (capture.setReader stream reader).reader stream = reader := by
  cases stream <;> rfl

theorem reader_setReader_of_ne {other : Stream} (different : other ≠ stream) (reader : Reader) :
    (capture.setReader other reader).reader stream = capture.reader stream := by
  cases other <;> cases stream <;> first | rfl | exact absurd rfl different

@[simp]
theorem piecesOf_setReader (other : Stream) (reader : Reader) :
    (capture.setReader other reader).piecesOf stream = capture.piecesOf stream := by
  cases other <;> rfl

@[simp]
theorem reader_setPhase (phase : Phase) :
    { capture with phase := phase }.reader stream = capture.reader stream := by
  cases stream <;> rfl

@[simp]
theorem piecesOf_setPhase (phase : Phase) :
    { capture with phase := phase }.piecesOf stream = capture.piecesOf stream :=
  rfl

theorem settle_eq : ∃ phase, capture.settle = { capture with phase := phase } := by
  unfold settle
  split
  · split
    · exact ⟨capture.phase, rfl⟩
    · exact ⟨_, rfl⟩
    · exact ⟨_, rfl⟩
  · exact ⟨capture.phase, rfl⟩
  · exact ⟨capture.phase, rfl⟩

@[simp]
theorem reader_settle : capture.settle.reader stream = capture.reader stream := by
  obtain ⟨phase, settled⟩ := capture.settle_eq
  rw [settled, reader_setPhase]

@[simp]
theorem piecesOf_settle : capture.settle.piecesOf stream = capture.piecesOf stream := by
  obtain ⟨phase, settled⟩ := capture.settle_eq
  rw [settled, piecesOf_setPhase]

/-- What becomes of the program and the two limits change the phase only. -/
theorem react_eq_setPhase (limited : Bool) {event : CaptureEvent}
    (silent : event.isReading = false) :
    ∃ phase, capture.react limited event = { capture with phase := phase } := by
  cases event with
  | taken | supplied | advanced => cases silent
  | childEnded | childLost | deadline | drainLimit =>
      simp only [react]
      split <;> exact ⟨_, rfl⟩

theorem reader_react_of_silent (limited : Bool) {event : CaptureEvent}
    (silent : event.isReading = false) :
    (capture.react limited event).reader stream = capture.reader stream := by
  obtain ⟨phase, reacted⟩ := capture.react_eq_setPhase limited silent
  rw [reacted, reader_setPhase]

theorem piecesOf_react_of_silent (limited : Bool) {event : CaptureEvent}
    (silent : event.isReading = false) :
    (capture.react limited event).piecesOf stream = capture.piecesOf stream := by
  obtain ⟨phase, reacted⟩ := capture.react_eq_setPhase limited silent
  rw [reacted, piecesOf_setPhase]

theorem advance_eq (other : Stream) :
    capture.advance other =
      match (capture.reader other).advance.1 with
      | none => capture.setReader other (capture.reader other).advance.2
      | some piece =>
          { capture.setReader other (capture.reader other).advance.2 with
            appended := (other, piece) ::
              (capture.setReader other (capture.reader other).advance.2).appended } :=
  rfl

theorem piecesOf_advance (other : Stream) :
    (capture.advance other).piecesOf stream =
      capture.piecesOf stream ++
        if other = stream then (capture.reader other).advance.1.toList else [] := by
  have kept := capture.piecesOf_setReader stream other (capture.reader other).advance.2
  rw [advance_eq, ← kept]
  cases (capture.reader other).advance.1 with
  | none => simp
  | some piece =>
      by_cases same : other = stream
      · simp [piecesOf, pieces, same]
      · simp [piecesOf, pieces, same]

theorem reader_advance (other : Stream) :
    (capture.advance other).reader stream =
      (capture.setReader other (capture.reader other).advance.2).reader stream := by
  rw [advance_eq]
  cases (capture.reader other).advance.1 with
  | none => rfl
  | some piece => cases stream <;> rfl

end Projections

variable {takenSoFar : Stream → List UInt8} {capture : Capture}

/-- Every event keeps the account. -/
theorem Accounted.step (accounted : Accounted takenSoFar capture) (limited : Bool)
    (event : CaptureEvent) :
    Accounted (fun stream => takenSoFar stream ++ capture.takes stream event)
      (capture.step limited event) := by
  intro stream
  have reading := accounted stream
  cases phaseEq : capture.phase with
  | finished result => simpa [Capture.step, takes, phaseEq] using reading
  | waiting | draining ending =>
      simp only [Capture.step, phaseEq, reader_settle, piecesOf_settle]
      cases event with
      | taken source bytes =>
          by_cases same : source = stream
          · subst same
            simpa [react, takes, phaseEq] using reading.take bytes
          · simpa [react, takes, phaseEq, same, reader_setReader_of_ne capture stream same]
              using reading
      | supplied source supply =>
          by_cases same : source = stream
          · subst same
            simpa [react, takes, phaseEq] using reading.learn supply
          · simpa [react, takes, phaseEq, same, reader_setReader_of_ne capture stream same]
              using reading
      | advanced source =>
          by_cases same : source = stream
          · subst same
            simpa [react, takes, phaseEq, reader_advance, piecesOf_advance] using reading.advance
          · simpa [react, takes, phaseEq, reader_advance, piecesOf_advance, same,
              reader_setReader_of_ne capture stream same] using reading
      | childEnded | childLost | deadline | drainLimit =>
          rw [reader_react_of_silent _ _ _ rfl, piecesOf_react_of_silent _ _ _ rfl]
          simpa [takes, phaseEq] using reading

theorem Accounted.foldl (accounted : Accounted takenSoFar capture) (limited : Bool)
    (events : List CaptureEvent) :
    Accounted (fun stream => takenSoFar stream ++ takenFrom limited stream capture events)
      (events.foldl (Capture.step limited) capture) := by
  induction events generalizing takenSoFar capture with
  | nil => simpa [takenFrom] using accounted
  | cons event events ih =>
      have next := ih (accounted.step limited event)
      simpa only [takenFrom, List.append_assoc, List.foldl_cons] using next

theorem accounted_initial : Accounted (fun _ => []) {} := by
  intro stream
  cases stream <;> exact Reader.Reading.initial

/-- Every capture accounts for all bytes that its readers have taken. -/
theorem accounted_run (limited : Bool) (events : List CaptureEvent) :
    Accounted (taken limited events) (run limited events) :=
  accounted_initial.foldl limited events

/-- What the buffer lacks of a stream is what the reader holds. -/
theorem bytesOf_append_held (limited : Bool) (events : List CaptureEvent) (stream : Stream) :
    (run limited events).bytesOf stream ++ ((run limited events).reader stream).held =
      taken limited events stream := by
  rw [bytesOf_eq_flatten]
  exact (accounted_run limited events stream).conserved

theorem merges_bytesOf (capture : Capture) : Merges capture.bytesOf capture.bytes := by
  rw [bytes_eq_flatten, show capture.bytesOf = fun stream => (capture.piecesOf stream).flatten
    from funext capture.bytesOf_eq_flatten]
  exact capture.merges_pieces.flatten

/-- The buffer is a merge of all bytes taken exactly if both readers are empty-handed. -/
theorem merges_taken_iff (limited : Bool) (events : List CaptureEvent) :
    Merges (taken limited events) (run limited events).bytes ↔
      ∀ stream, ((run limited events).reader stream).held = [] := by
  have lengthOf (stream : Stream) :=
    congrArg List.length (bytesOf_append_held limited events stream)
  simp only [List.length_append] at lengthOf
  have inBuffer := (run limited events).merges_bytesOf
  constructor
  · intro merges
    have allLength := merges.length_eq
    have bufferLength := inBuffer.length_eq
    have outputLength := lengthOf .output
    have errorsLength := lengthOf .errors
    intro stream
    apply List.eq_nil_of_length_eq_zero
    cases stream <;> omega
  · intro empty
    have same : (run limited events).bytesOf = taken limited events := by
      funext stream
      rw [← bytesOf_append_held limited events stream, empty stream, List.append_nil]
    exact same ▸ inBuffer

theorem eq_bytes_of_result? {capture : Capture} {ending : Option Ending} {buffer : List UInt8}
    (returned : capture.result? = some (.ok (ending, buffer))) : buffer = capture.bytes :=
  (result?_eq_ok_iff.mp returned).2

/-- A capture that ends without a fault returns every byte its readers have taken, each
stream in order, exactly if each reader has nothing left to hand on and either its stream
has ended or what it has taken ends with a newline. -/
theorem keeps_all_taken_iff (limited : Bool) (events : List CaptureEvent)
    (ending : Option Ending) (buffer : List UInt8)
    (returned : (run limited events).result? = some (.ok (ending, buffer))) :
    Merges (taken limited events) buffer ↔
      ∀ stream, ((run limited events).reader stream).advance.1 = none ∧
        (((run limited events).reader stream).supply = .ended ∨
          Reader.EndsLine (taken limited events stream)) := by
  rw [eq_bytes_of_result? returned, merges_taken_iff]
  have heldIff (stream : Stream) := (accounted_run limited events stream).held_eq_nil_iff
  exact forall_congr' heldIff

/-- A reader that has handed on its only line and one whose stream has ended are abandoned
without loss. -/
theorem keeps_all_taken_of_whole_lines :
    (run true [.taken .output [97, 10], .advanced .output, .taken .errors [98],
        .supplied .errors .ended, .advanced .errors, .childEnded (.exited 0), .deadline,
        .drainLimit]).result? = some (.ok (some (.exited 0), [97, 10, 98])) ∧
      Merges (taken true [.taken .output [97, 10], .advanced .output, .taken .errors [98],
        .supplied .errors .ended, .advanced .errors, .childEnded (.exited 0), .deadline,
        .drainLimit]) [97, 10, 98] := by
  refine ⟨rfl, (keeps_all_taken_iff true _ (some (.exited 0)) _ rfl).mpr ?_⟩
  intro stream
  cases stream with
  | output => exact ⟨rfl, Or.inr (by decide)⟩
  | errors => exact ⟨rfl, Or.inl rfl⟩

/-- Text without a final newline that was taken long before the deadline is lost if another
process keeps the stream open. -/
theorem drain_limit_loses_open_line :
    (run true [.taken .output [112, 97, 114, 116], .childEnded (.exited 0), .deadline,
        .drainLimit]).result? = some (.ok (some (.exited 0), [])) ∧
      taken true [.taken .output [112, 97, 114, 116], .childEnded (.exited 0), .deadline,
        .drainLimit] .output = [112, 97, 114, 116] ∧
      ¬ Merges (taken true [.taken .output [112, 97, 114, 116], .childEnded (.exited 0),
        .deadline, .drainLimit]) [] := by
  refine ⟨rfl, rfl, ?_⟩
  intro merges
  have lengths := merges.length_eq
  revert lengths
  decide

end Capture

end CaseHarness
