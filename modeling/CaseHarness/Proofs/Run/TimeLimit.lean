import CaseHarness.Proofs.Process.Delivery
import CaseHarness.Proofs.Run.Stages
import CaseHarness.Proofs.Verification.Failures

/-!
# Runs that are limited in time

The wait for the program ends with the program or at the deadline.  Whichever comes first
decides how the run is said to have ended, whatever the pipes do then; and until the drain
limit every piece that a reader hands on comes into the buffer.  The pieces are counted by
following a capture through its events, first while it waits for the program, then while it
drains.
-/

namespace CaseHarness

namespace Reader

/-- The piece that an event makes the reader of a stream hand on. -/
def hands (reader : Reader) (stream : Stream) : CaptureEvent → List (List UInt8)
  | .advanced source => if source = stream then reader.advance.1.toList else []
  | .taken .. | .supplied .. | .childEnded _ | .childLost _ | .deadline | .drainLimit => []

/-- The pieces that the reader of a stream hands on while it follows events. -/
def handsOn (stream : Stream) : Reader → List CaptureEvent → List (List UInt8)
  | _, [] => []
  | reader, event :: events =>
      reader.hands stream event ++ handsOn stream (reader.follow stream event) events

variable {reader : Reader} {stream : Stream}

@[simp]
theorem result_take (reader : Reader) (bytes : List UInt8) :
    (reader.take bytes).result = reader.result := by
  unfold take
  split <;> rfl

@[simp]
theorem result_learn (reader : Reader) (supply : Supply) :
    (reader.learn supply).result = reader.result := by
  unfold learn
  split <;> rfl

theorem advance_of_reachedEnd (ended : reader.ReachedEnd) : reader.advance = (none, reader) := by
  unfold ReachedEnd at ended
  simp [advance, ended]

theorem ReachedEnd.follow (ended : reader.ReachedEnd) (event : CaptureEvent) :
    (reader.follow stream event).ReachedEnd := by
  have result : reader.result = some (.ok ()) := ended
  cases event with
  | taken source bytes =>
      simp only [Reader.follow]
      split <;> simp [ReachedEnd, result]
  | supplied source supply =>
      simp only [Reader.follow]
      split <;> simp [ReachedEnd, result]
  | advanced source =>
      simp only [Reader.follow, advance_of_reachedEnd ended]
      split <;> exact ended
  | childEnded | childLost | deadline | drainLimit => exact ended

/-- A reader that has come to the end of its stream hands on nothing more. -/
theorem handsOn_of_reachedEnd (ended : reader.ReachedEnd) (events : List CaptureEvent) :
    handsOn stream reader events = [] := by
  induction events generalizing reader with
  | nil => rfl
  | cons event events ih =>
      have nothing : reader.hands stream event = [] := by
        cases event <;> simp [hands, advance_of_reachedEnd ended]
      rw [handsOn, nothing, ih (ended.follow event), List.nil_append]

end Reader

namespace Capture

/-- The deadline comes while the program has not ended. -/
def DeadlineFirst (events : List CaptureEvent) : Prop :=
  ∃ before after, events = before ++ .deadline :: after ∧ ∀ ending, .childEnded ending ∉ before

/-- The program ends before the deadline. -/
def EndsFirst (events : List CaptureEvent) (ending : Ending) : Prop :=
  ∃ before after, events = before ++ .childEnded ending :: after ∧ .deadline ∉ before ∧
    ∀ other, .childEnded other ∉ before

/-- The events before the drain limit, which does not count before the wait for the program is
over. -/
def untilDrainLimit : List CaptureEvent → List CaptureEvent
  | [] => []
  | event :: events =>
      event ::
        if (event.endsWait? true).isSome then events.takeWhile fun event => event ≠ .drainLimit
        else untilDrainLimit events

section Decided

variable {events : List CaptureEvent} {result : Option Ending} {ending : Ending}

theorem deadlineFirst_iff (waitEnds : waitEnd? true events = some (.ok result)) :
    DeadlineFirst events ↔ result = none := by
  constructor
  · rintro ⟨before, after, rfl, noEnd⟩
    rw [waitEnd?, List.findSome?_append] at waitEnds
    -- An earlier deadline counts in the place of this one.
    cases earlier : before.findSome? (CaptureEvent.endsWait? true) with
    | none =>
        rw [earlier] at waitEnds
        cases waitEnds
        rfl
    | some ended =>
        rw [earlier] at waitEnds
        cases waitEnds
        obtain ⟨event, mem, ends⟩ := List.exists_of_findSome?_eq_some earlier
        cases event <;> cases ends
        · exact absurd mem (noEnd _)
        · rfl
  · rintro rfl
    obtain ⟨before, event, after, eventsEq, ends, others⟩ := List.findSome?_eq_some_iff.mp waitEnds
    cases event <;> cases ends
    refine ⟨before, after, eventsEq, fun ending mem => ?_⟩
    cases others _ mem

theorem endsFirst_of_waitEnd? (waitEnds : waitEnd? true events = some (.ok (some ending))) :
    EndsFirst events ending := by
  obtain ⟨before, event, after, eventsEq, ends, others⟩ := List.findSome?_eq_some_iff.mp waitEnds
  cases event <;> cases ends
  refine ⟨before, after, eventsEq, fun mem => ?_, fun other mem => ?_⟩
  · cases others _ mem
  · cases others _ mem

end Decided

section Followed

variable {capture : Capture} {stream : Stream} {ending : Option Ending}

/-- While a capture goes on, the pieces that its readers hand on come into the buffer. -/
theorem piecesOf_step (goesOn : ∀ result, capture.phase ≠ .finished result) (limited : Bool)
    (stream : Stream) (event : CaptureEvent) :
    (capture.step limited event).piecesOf stream =
      capture.piecesOf stream ++ (capture.reader stream).hands stream event := by
  rw [step_eq_settle goesOn, piecesOf_settle]
  cases event with
  | taken source _ | supplied source _ => simp [react, Reader.hands]
  | advanced source =>
      rw [react, piecesOf_advance, Reader.hands]
      by_cases same : source = stream <;> simp [same]
  | childEnded | childLost | deadline | drainLimit =>
      rw [piecesOf_react_of_silent _ _ _ rfl]
      exact (List.append_nil _).symm

/-- The wait for the program has ended like this, and no fault has been met; if the capture has
finished it has waited for both readers. -/
def Drains (ending : Option Ending) (capture : Capture) : Prop :=
  capture.phase = .draining ending ∨
    (capture.phase = .finished (.ok ending) ∧ ∀ stream, (capture.reader stream).ReachedEnd)

/-- The capture has failed. -/
def Fails (capture : Capture) : Prop :=
  ∃ fault, capture.phase = .finished (.error fault)

theorem drains_or_fails_settle (draining : capture.phase = .draining ending) :
    Drains ending capture.settle ∨ Fails capture.settle := by
  cases awaitedEq : capture.awaited with
  | none =>
      rw [settle_of_unsettled draining awaitedEq]
      exact Or.inl (Or.inl draining)
  | some result =>
      cases result with
      | ok _ =>
          rw [settle_of_ended draining awaitedEq]
          refine Or.inl (Or.inr ⟨rfl, fun stream => ?_⟩)
          rw [reader_setPhase]
          exact awaited_eq_ok_iff.mp awaitedEq stream
      | error fault =>
          rw [settle_of_failed draining awaitedEq]
          exact Or.inr ⟨.reader fault, rfl⟩

/-- A capture that succeeds after an event has not failed with it. -/
theorem Drains.of_step {event : CaptureEvent} {events : List CaptureEvent}
    {result : Option Ending} (goesOn : ∀ result, capture.phase ≠ .finished result)
    (reacted : (capture.react true event).phase = .draining ending)
    (finished :
      (events.foldl (step true) (capture.step true event)).phase = .finished (.ok result)) :
    Drains ending (capture.step true event) := by
  rw [step_eq_settle goesOn] at finished ⊢
  rcases drains_or_fails_settle reacted with drains | ⟨fault, failed⟩
  · exact drains
  · rw [foldl_step_of_finished failed, failed] at finished
    cases finished

/-- While a capture drains, all pieces that are handed on before the drain limit come into the
buffer. -/
theorem foldl_of_drains {events : List CaptureEvent} {result : Option Ending}
    (drains : Drains ending capture)
    (finished : (events.foldl (step true) capture).phase = .finished (.ok result))
    (stream : Stream) :
    (events.foldl (step true) capture).piecesOf stream =
      capture.piecesOf stream ++ Reader.handsOn stream (capture.reader stream)
        (events.takeWhile fun event => event ≠ .drainLimit) := by
  induction events generalizing capture with
  | nil => exact (List.append_nil _).symm
  | cons event events ih =>
      rcases drains with draining | ⟨ended, all⟩
      · have goesOn : ∀ result, capture.phase ≠ .finished result := by simp [draining]
        rw [List.foldl_cons] at finished ⊢
        by_cases limit : event = .drainLimit
        -- The drain limit leaves the readers as they are, and nothing behind it is heard.
        · rw [limit, step_drainLimit draining, foldl_step_of_finished rfl,
            List.takeWhile_cons_of_neg (by simp), Reader.handsOn, List.append_nil,
            piecesOf_setPhase]
        · have reacted : (capture.react true event).phase = .draining ending :=
            phase_react_of_draining draining fun _ => limit
          rw [ih (.of_step goesOn reacted finished) finished, piecesOf_step goesOn,
            reader_step goesOn, List.append_assoc,
            List.takeWhile_cons_of_pos (by simpa using limit), Reader.handsOn]
      -- Both readers have come to their ends, so they hand on nothing more.
      · rw [foldl_step_of_finished ended, Reader.handsOn_of_reachedEnd (all stream),
          List.append_nil]

/-- From the wait for the program on, all pieces that are handed on before the drain limit come
into the buffer. -/
theorem foldl_of_waiting {events : List CaptureEvent} {result : Option Ending}
    (waiting : capture.phase = .waiting)
    (finished : (events.foldl (step true) capture).phase = .finished (.ok result))
    (stream : Stream) :
    (events.foldl (step true) capture).piecesOf stream =
      capture.piecesOf stream ++ Reader.handsOn stream (capture.reader stream)
        (untilDrainLimit events) := by
  induction events generalizing capture with
  | nil => exact (List.append_nil _).symm
  | cons event events ih =>
      have goesOn : ∀ result, capture.phase ≠ .finished result := by simp [waiting]
      have reacted := phase_react_of_waiting waiting true event
      have stepEq := step_eq_settle goesOn true event
      -- After the event the readers are awaited, or still the program.
      rw [List.foldl_cons] at finished ⊢
      rw [untilDrainLimit]
      cases ends : event.endsWait? true with
      | none =>
          rw [ends] at reacted
          have waits : (capture.step true event).phase = .waiting := by
            rw [stepEq, settle_eq_self (by simp [reacted]), reacted]
          rw [ih waits finished, piecesOf_step goesOn, reader_step goesOn, List.append_assoc]
          simp [Reader.handsOn]
      | some wait =>
          rw [ends] at reacted
          cases wait with
          | ok ending =>
              rw [foldl_of_drains (.of_step goesOn reacted finished) finished,
                piecesOf_step goesOn, reader_step goesOn, List.append_assoc]
              simp [Reader.handsOn]
          | error text =>
              have failed : (capture.step true event).phase =
                  .finished (.error (.child text)) := by
                rw [stepEq, settle_eq_self (by simp [reacted]), reacted]
              rw [foldl_step_of_finished failed, failed] at finished
              cases finished

/-- A limited capture that succeeds returns the pieces that were handed on before the drain
limit. -/
theorem result?_limited {events : List CaptureEvent} {bytes : List UInt8}
    (returned : (run true events).result? = some (.ok (ending, bytes))) :
    ∃ pieces, Merges (fun stream => Reader.handsOn stream {} (untilDrainLimit events)) pieces ∧
      bytes = pieces.flatten := by
  have finished := (result?_eq_ok_iff.mp returned).1
  have initial : (run true events).piecesOf =
      fun stream => Reader.handsOn stream {} (untilDrainLimit events) := by
    funext stream
    have followed := foldl_of_waiting rfl finished stream
    cases stream <;> exact followed
  refine ⟨(run true events).pieces.map Prod.snd, ?_, ?_⟩
  · rw [← initial]
    exact (run true events).merges_pieces
  · rw [eq_bytes_of_result? returned, bytes_eq_flatten]

end Followed

end Capture

open Capture (DeadlineFirst EndsFirst untilDrainLimit)

theorem Duration.milliseconds_of_fits {limit : Duration}
    (fits : limit.total / 1000000 < Nat.pow 2 64) :
    limit.milliseconds = limit.total / 1000000 := by
  have whole : limit.seconds * 1000 + limit.nanoseconds / 1000000 = limit.total / 1000000 := by
    rw [total]
    omega
  rw [milliseconds, whole, Nat.mod_eq_of_lt fits]

/-- With a limit, the run is said to be out of time exactly if the deadline came before the
end of the program, and else it has the ending of the program, whatever the pipes do.  The
output has every piece that a reader has handed on before the drain limit, those of each
stream in their order.  The verdict is the lack of time alone in the first case and never in
the second. -/
theorem limited_run_decided_by_deadline {launch : Launcher} {case : TestCase}
    {command : List String} {limit : Duration} {session : Session} {execution : Execution}
    (fits : limit.total / 1000000 < Nat.pow 2 64)
    (done : (runTarget launch case command (some limit) session).2 = .done execution) :
    ∃ request launched,
      Spawns launch session.files session.directory case command (some limit) request launched ∧
      (execution.termination = .timedOut (limit.total / 1000000) ↔
        DeadlineFirst launched.events) ∧
      (¬ DeadlineFirst launched.events → ∃ ending, EndsFirst launched.events ending ∧
        execution.termination = ending.termination) ∧
      (∃ pieces,
        Merges (fun stream => Reader.handsOn stream {} (untilDrainLimit launched.events)) pieces ∧
          execution.output = Text.Utf8.decode pieces.flatten) ∧
      ∀ expectations,
        (DeadlineFirst launched.events →
          Verification.verify expectations execution =
            ⟨[.timedOut (limit.total / 1000000)]⟩) ∧
        (¬ DeadlineFirst launched.events → ∀ milliseconds,
          .timedOut milliseconds ∉ (Verification.verify expectations execution).failures) := by
  obtain ⟨request, launched, spawns, ⟨-, ending, bytes, returned, executionEq⟩, -⟩ :=
    runTarget_eq_done_iff.mp (Prod.ext rfl done)
  rw [Option.isSome_some] at returned
  have waitEnds := (Capture.explained_of_result?_eq_ok returned).1
  obtain ⟨pieces, merges, bytesEq⟩ := Capture.result?_limited returned
  have outputEq : execution.output = Text.Utf8.decode pieces.flatten := by
    rw [executionEq, bytesEq]
  refine ⟨request, launched, spawns, ?_⟩
  rw [Capture.deadlineFirst_iff waitEnds]
  cases ending with
  | none =>
      have outOfTime : execution.termination = .timedOut (limit.total / 1000000) := by
        rw [executionEq]
        exact congrArg Termination.timedOut (Duration.milliseconds_of_fits fits)
      refine ⟨iff_of_true outOfTime rfl, fun late => absurd rfl late, ⟨pieces, merges, outputEq⟩,
        fun expectations => ⟨fun _ => ?_, fun late => absurd rfl late⟩⟩
      rw [Verification.verify, outOfTime]
  | some ending =>
      have itself : execution.termination = ending.termination := by rw [executionEq]; rfl
      have notOut (milliseconds : Nat) : execution.termination ≠ .timedOut milliseconds := by
        rw [itself]
        cases ending <;> exact nofun
      refine ⟨iff_of_false (notOut _) nofun,
        fun _ => ⟨ending, Capture.endsFirst_of_waitEnd? waitEnds, itself⟩,
        ⟨pieces, merges, outputEq⟩,
        fun expectations => ⟨nofun, fun _ milliseconds mem => ?_⟩⟩
      have judges := Verification.judges_verify expectations execution
      exact notOut milliseconds (judges.termination_of_mem mem)

/-- Both streams stay open until the drain limit; the program is killed or ends just before. -/
theorem limit_decides_with_open_streams :
    let case : TestCase := ⟨"/work", "case.tcf", []⟩
    let session : Session := { files := {}, directory := [] }
    let launch (first second : CaptureEvent) : Launcher := fun files _ => .ok
      { events :=
          [.drainLimit, .taken .output [97, 10, 98], first, .advanced .output, second,
            .taken .errors [99, 10], .advanced .errors, .drainLimit, .advanced .output]
        elapsed := 2000000000
        files := files }
    let killed : Execution := ⟨"a\nc\n", .timedOut 1500, ⟨2, 0⟩⟩
    let ended : Execution := ⟨"a\nc\n", .signaled 15, ⟨2, 0⟩⟩
    (runTarget (launch .deadline (.childEnded (.signaled 15))) case ["prog"]
        (some ⟨1, 500000000⟩) session).2 = .done killed ∧
      (runTarget (launch (.childEnded (.signaled 15)) .deadline) case ["prog"]
        (some ⟨1, 500000000⟩) session).2 = .done ended ∧
      (∀ expectations, Verification.verify expectations killed = ⟨[.timedOut 1500]⟩) ∧
      ∀ expectations milliseconds,
        .timedOut milliseconds ∉ (Verification.verify expectations ended).failures := by
  intro case session launch killed ended
  have fits : Duration.total ⟨1, 500000000⟩ / 1000000 < Nat.pow 2 64 := by decide
  have kills : (runTarget (launch .deadline (.childEnded (.signaled 15))) case ["prog"]
      (some ⟨1, 500000000⟩) session).2 = .done killed := by
    decide +kernel
  have ends : (runTarget (launch (.childEnded (.signaled 15)) .deadline) case ["prog"]
      (some ⟨1, 500000000⟩) session).2 = .done ended := by
    decide +kernel
  obtain ⟨_, _, -, killedIff, -, -, killedVerdict⟩ := limited_run_decided_by_deadline fits kills
  obtain ⟨_, _, -, endedIff, -, -, endedVerdict⟩ := limited_run_decided_by_deadline fits ends
  refine ⟨kills, ends, ?_, ?_⟩
  · intro expectations
    exact (killedVerdict expectations).1 (killedIff.mp rfl)
  · intro expectations
    refine (endedVerdict expectations).2 fun late => ?_
    cases endedIff.mpr late

end CaseHarness
