import CaseHarness.Proofs.Process.Outcome
import CaseHarness.Run.Target

/-!
# Delivery of whole streams

What a pipe delivers is told by the events alone: the bytes offered before the pipe ends,
in whatever pieces they come.  A reader takes all of them, and a capture that is not
limited in time ends only when both readers have come to the ends of their streams.  Its
buffer therefore consists of the chunks of the two streams, each stream in its order, and
how the bytes were cut by the reads leaves no trace.
-/

namespace CaseHarness

namespace CaptureEvent

/-- The bytes that an event offers to the reader of a stream. -/
def offers (stream : Stream) : CaptureEvent → List UInt8
  | taken source bytes => if source = stream then bytes else []
  | supplied .. | advanced _ | childEnded _ | childLost _ | deadline | drainLimit => []

/-- Whether an event ends the pipe of a stream or makes it fail. -/
def closes (stream : Stream) : CaptureEvent → Bool
  | supplied source supply => source = stream ∧ supply ≠ .flowing
  | taken .. | advanced _ | childEnded _ | childLost _ | deadline | drainLimit => false

end CaptureEvent

namespace Reader

/-- What an event does to the reader of a stream while the capture goes on. -/
def follow (reader : Reader) (stream : Stream) : CaptureEvent → Reader
  | .taken source bytes => if source = stream then reader.take bytes else reader
  | .supplied source supply => if source = stream then reader.learn supply else reader
  | .advanced source => if source = stream then reader.advance.2 else reader
  | .childEnded _ | .childLost _ | .deadline | .drainLimit => reader

@[simp]
theorem supply_take (reader : Reader) (bytes : List UInt8) :
    (reader.take bytes).supply = reader.supply := by
  unfold take
  split <;> rfl

@[simp]
theorem supply_advance (reader : Reader) : reader.advance.2.supply = reader.supply := by
  rcases reader.advance_cases with ⟨-, moves⟩ | ⟨-, line, rest, -, moves⟩ |
    ⟨-, -, ⟨-, -, moves⟩ | ⟨-, -, moves⟩ | ⟨fault, -, moves⟩⟩ <;> simp [moves]

theorem supply_follow_of_ne_flowing {reader : Reader} (stopped : reader.supply ≠ .flowing)
    (stream : Stream) (event : CaptureEvent) :
    (reader.follow stream event).supply = reader.supply := by
  cases event with
  | taken source bytes =>
      simp only [follow]
      split <;> simp
  | supplied source supply =>
      simp only [follow, learn]
      split
      · cases supplyEq : reader.supply <;> simp_all
      · rfl
  | advanced source =>
      simp only [follow]
      split <;> simp
  | childEnded | childLost | deadline | drainLimit => rfl

theorem supply_follow_eq_flowing_iff {reader : Reader} (flowing : reader.supply = .flowing)
    (stream : Stream) (event : CaptureEvent) :
    (reader.follow stream event).supply = .flowing ↔ ¬ event.closes stream := by
  cases event with
  | taken source bytes =>
      simp only [follow]
      split <;> simp [flowing, CaptureEvent.closes]
  | supplied source supply =>
      by_cases same : source = stream <;>
        simp [follow, learn, flowing, CaptureEvent.closes, same]
  | advanced source =>
      simp only [follow]
      split <;> simp [flowing, CaptureEvent.closes]
  | childEnded | childLost | deadline | drainLimit =>
      simp [follow, flowing, CaptureEvent.closes]

end Reader

namespace Capture

open Reader

/-- The bytes that the pipe of a stream delivers before it ends or fails. -/
def sent (stream : Stream) : List CaptureEvent → List UInt8
  | [] => []
  | event :: events =>
      event.offers stream ++ if event.closes stream then [] else sent stream events

section Delivered

variable {limited : Bool} {stream : Stream} {capture : Capture}

theorem step_eq_settle (goesOn : ∀ result, capture.phase ≠ .finished result) (limited : Bool)
    (event : CaptureEvent) : capture.step limited event = (capture.react limited event).settle := by
  unfold step
  split
  · next result phaseEq => exact absurd phaseEq (goesOn result)
  · rfl
  · rfl

/-- While a capture goes on, its readers follow the events. -/
theorem reader_step (goesOn : ∀ result, capture.phase ≠ .finished result) (limited : Bool)
    (stream : Stream) (event : CaptureEvent) :
    (capture.step limited event).reader stream = (capture.reader stream).follow stream event := by
  rw [step_eq_settle goesOn, reader_settle]
  cases event with
  | taken source _ | supplied source _ =>
      by_cases same : source = stream
      · subst same
        simp [react, follow]
      · simp [react, follow, same, reader_setReader_of_ne capture stream same]
  | advanced source =>
      by_cases same : source = stream
      · subst same
        simp [react, follow, reader_advance]
      · simp [react, follow, same, reader_advance, reader_setReader_of_ne capture stream same]
  | childEnded | childLost | deadline | drainLimit => exact reader_react_of_silent _ _ _ rfl

/-- While a capture goes on and the pipe flows, a reader takes all that is offered. -/
theorem takes_eq_offers (goesOn : ∀ result, capture.phase ≠ .finished result)
    (flowing : (capture.reader stream).supply = .flowing)
    (running : (capture.reader stream).result = none) (event : CaptureEvent) :
    capture.takes stream event = event.offers stream := by
  have accepts (bytes : List UInt8) : (capture.reader stream).accepted bytes = bytes := by
    simp [accepted, flowing, running]
  cases phaseEq : capture.phase with
  | finished result => exact absurd phaseEq (goesOn result)
  | waiting | draining => cases event <;> simp [takes, phaseEq, accepts, CaptureEvent.offers]

theorem takes_eq_nil (stopped : (capture.reader stream).supply ≠ .flowing) (event : CaptureEvent) :
    capture.takes stream event = [] := by
  have refuses (bytes : List UInt8) : (capture.reader stream).accepted bytes = [] := by
    unfold accepted
    split
    · next flowing _ => exact absurd flowing stopped
    · rfl
  cases phaseEq : capture.phase <;> cases event <;> simp [takes, phaseEq, refuses]

theorem takenFrom_eq_nil (stopped : (capture.reader stream).supply ≠ .flowing) (limited : Bool)
    (events : List CaptureEvent) : takenFrom limited stream capture events = [] := by
  induction events generalizing capture with
  | nil => rfl
  | cons event events ih =>
      have stoppedStill : ((capture.step limited event).reader stream).supply ≠ .flowing := by
        cases phaseEq : capture.phase with
        | finished result => simpa [step, phaseEq] using stopped
        | waiting | draining =>
            rw [reader_step (by simp [phaseEq]), supply_follow_of_ne_flowing stopped]
            exact stopped
      rw [takenFrom, takes_eq_nil stopped, ih stoppedStill]
      rfl

/-- A reader whose pipe comes to its end takes all that the pipe delivers. -/
theorem takenFrom_eq_sent {takenSoFar : Stream → List UInt8} {events : List CaptureEvent}
    (accounted : Accounted takenSoFar capture)
    (flowing : (capture.reader stream).supply = .flowing)
    (stopped : ((events.foldl (step limited) capture).reader stream).supply ≠ .flowing) :
    takenFrom limited stream capture events = sent stream events := by
  induction events generalizing takenSoFar capture with
  | nil => exact absurd flowing stopped
  | cons event events ih =>
      -- A capture that has finished keeps its readers, so this one goes on.
      have goesOn : ∀ result, capture.phase ≠ .finished result := by
        intro result finished
        rw [foldl_step_of_finished finished] at stopped
        exact stopped flowing
      have flowsOn := supply_follow_eq_flowing_iff flowing stream event
      rw [← reader_step goesOn limited stream event] at flowsOn
      rw [takenFrom, sent, takes_eq_offers goesOn flowing ((accounted stream).running flowing)]
      by_cases closed : event.closes stream
      · have nothing := takenFrom_eq_nil (fun still => flowsOn.mp still closed) limited events
        rw [nothing, if_pos closed]
      · have rest := ih (accounted.step limited event) (flowsOn.mpr closed) stopped
        rw [rest, if_neg closed]

/-- What a reader has taken when it comes to the end of its stream is the whole stream. -/
theorem taken_eq_sent {events : List CaptureEvent}
    (ended : ((run limited events).reader stream).ReachedEnd) :
    taken limited events stream = sent stream events := by
  have stopped : ((run limited events).reader stream).supply ≠ .flowing := by
    rw [supply_of_reachedEnd ended]
    exact nofun
  exact takenFrom_eq_sent accounted_initial (by cases stream <;> rfl) stopped

end Delivered

/-- The order in which the readers append to the buffer. -/
def order (events : List CaptureEvent) : List Stream :=
  (run false events).pieces.map Prod.fst

section Unlimited

variable {events : List CaptureEvent} {value : Option Ending × List UInt8}

theorem reachedEnd_of_result?_eq_ok (returned : (run false events).result? = some (.ok value))
    (stream : Stream) : ((run false events).reader stream).ReachedEnd := by
  rcases awaited_of_result?_eq_ok returned with all | ⟨-, isLimited, -⟩
  · exact all stream
  · cases isLimited

theorem piecesOf_eq_chunks_sent (returned : (run false events).result? = some (.ok value)) :
    (run false events).piecesOf = fun stream => chunks (sent stream events) := by
  funext stream
  have ended := reachedEnd_of_result?_eq_ok returned stream
  have chunked := (accounted_run false events stream).chunked
  rwa [held_of_reachedEnd ended, chunks_nil, List.append_nil, taken_eq_sent ended] at chunked

/-- Captures of the same streams whose readers append in the same order fill their buffers
alike. -/
theorem pieces_eq_of_order_eq {events others : List CaptureEvent}
    {value otherValue : Option Ending × List UInt8}
    (returned : (run false events).result? = some (.ok value))
    (otherReturned : (run false others).result? = some (.ok otherValue))
    (sameStreams : ∀ stream, sent stream others = sent stream events)
    (sameOrder : order others = order events) :
    (run false others).pieces = (run false events).pieces := by
  refine eq_of_tags_eq sameOrder fun stream => ?_
  have piecesEq := congrFun (piecesOf_eq_chunks_sent returned) stream
  have otherPiecesEq := congrFun (piecesOf_eq_chunks_sent otherReturned) stream
  rw [sameStreams stream] at otherPiecesEq
  exact otherPiecesEq.trans piecesEq.symm

end Unlimited

end Capture

namespace Execution

open Capture Reader

variable {program : String} {launched : Launched} {execution : Execution}

theorem output_of_ofCapture {limit : Option Duration}
    (captured : ofCapture program limit launched = .done execution) :
    ∃ value, (run limit.isSome launched.events).result? = some (.ok value) ∧
      execution.output = Text.Utf8.decode (run limit.isSome launched.events).bytes := by
  unfold ofCapture at captured
  split at captured
  · cases captured
  · dsimp only at captured
    split at captured
    · cases captured
    · cases captured
    · next ending bytes resultEq =>
      cases captured
      exact ⟨_, resultEq, by rw [eq_bytes_of_result? resultEq]⟩

/-- A capture that is not limited in time and succeeds returns the chunks of the two streams,
those of each stream in their order, and so every byte of each stream.  The output is the
text of the buffer; it is the text of one stream if the other one is empty, and it does
not depend on the pieces in which the streams were read. -/
theorem delivers_both_streams (captured : ofCapture program none launched = .done execution) :
    ∃ pieces : List (List UInt8),
      Merges (fun stream => chunks (sent stream launched.events)) pieces ∧
      Merges (fun stream => sent stream launched.events) pieces.flatten ∧
      execution.output = Text.Utf8.decode pieces.flatten ∧
      (∀ stream, sent stream.other launched.events = [] →
        execution.output = Text.Utf8.decode (sent stream launched.events)) ∧
      ∀ otherProgram otherLaunched otherExecution,
        ofCapture otherProgram none otherLaunched = .done otherExecution →
        (∀ stream, sent stream otherLaunched.events = sent stream launched.events) →
        order otherLaunched.events = order launched.events →
        otherExecution.output = execution.output := by
  obtain ⟨value, returned, outputEq⟩ := output_of_ofCapture captured
  have chunksMerge := (run false launched.events).merges_pieces
  rw [piecesOf_eq_chunks_sent returned] at chunksMerge
  have bytesMerge := chunksMerge.flatten
  simp only [flatten_chunks] at bytesMerge
  rw [Option.isSome_none, bytes_eq_flatten] at outputEq
  refine ⟨_, chunksMerge, bytesMerge, outputEq, ?_, ?_⟩
  · intro stream nothing
    rw [outputEq, bytesMerge.eq_part nothing]
  · intro otherProgram otherLaunched otherExecution otherCaptured sameStreams sameOrder
    obtain ⟨otherValue, otherReturned, otherOutputEq⟩ := output_of_ofCapture otherCaptured
    rw [otherOutputEq, outputEq, Option.isSome_none, bytes_eq_flatten,
      pieces_eq_of_order_eq returned otherReturned sameStreams sameOrder]

/-- A character that is cut by a read arrives whole, although a line of the other stream is
appended between the two reads. -/
theorem delivers_cut_character :
    let launched : Launched :=
      { events :=
          [.taken .output [195], .taken .errors [111, 10], .advanced .errors,
            .taken .output [169, 10, 98], .childEnded (.exited 0), .advanced .output,
            .supplied .output .ended, .supplied .errors .ended, .advanced .errors,
            .advanced .output, .advanced .output]
        elapsed := 0
        files := {} }
    ofCapture "program" none launched = .done ⟨"o\né\nb", .exited 0, {}⟩ ∧
      ∃ pieces : List (List UInt8),
        Merges (fun stream => chunks (sent stream launched.events)) pieces ∧
        "o\né\nb" = Text.Utf8.decode pieces.flatten := by
  intro launched
  have captured : ofCapture "program" none launched = .done ⟨"o\né\nb", .exited 0, {}⟩ := by
    decide
  obtain ⟨pieces, merges, -, outputEq, -⟩ := delivers_both_streams captured
  exact ⟨captured, pieces, merges, outputEq⟩

end Execution

end CaseHarness
