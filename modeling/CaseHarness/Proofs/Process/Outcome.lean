import CaseHarness.Proofs.Process.Accounting
import Mathlib.Data.List.Induction

/-!
# How captures end

The first event that ends the wait for the program decides how it ends: with the program,
at the deadline, or with a fault that the capture reports at once.  Then the readers are
awaited one after the other, so that what a capture learns about them is decided by the
first one that has not come to the end of its stream.  `Explained` ties the phase of a
capture to its events and to the state of its readers; every event keeps it.  A capture
fails exactly with the fault that these waits meet first.  When the drain limit cuts the
second one short, a fault of the second reader is lost if the first one is still reading,
and so is what a reader holds at that moment.
-/

namespace CaseHarness

namespace Reader

def ReachedEnd (reader : Reader) : Prop :=
  reader.result = some (.ok ())

def FailedWith (reader : Reader) (fault : ReaderFault) : Prop :=
  reader.result = some (.error fault)

def StillReading (reader : Reader) : Prop :=
  reader.result = none

end Reader

/-- How the wait for the program ends with an event, if it does: with the ending of the
program, with none inside at a deadline, which counts in a limited run only, or with a
fault. -/
def CaptureEvent.endsWait? (limited : Bool) :
    CaptureEvent → Option (Except String (Option Ending))
  | childEnded ending => some (.ok (some ending))
  | childLost text => some (.error text)
  | deadline => if limited then some (.ok none) else none
  | taken .. | supplied .. | advanced _ | drainLimit => none

namespace Capture

/-- What a wait for the readers in order comes to at this moment. -/
def awaited (capture : Capture) : Option (Except ReaderFault Unit) :=
  awaitReaders [capture.output.result, capture.errors.result]

/-- How the wait for the program ended: the first event that ends it decides. -/
def waitEnd? (limited : Bool) (events : List CaptureEvent) :
    Option (Except String (Option Ending)) :=
  events.findSome? (CaptureEvent.endsWait? limited)

/-- The program has ended, or its time has run out. -/
def WaitOver (limited : Bool) (events : List CaptureEvent) : Prop :=
  ∃ ending, waitEnd? limited events = some (.ok ending)

/-- The drain limit came while the readers were awaited, and they were left as they
were then. -/
def Abandoned (limited : Bool) (events : List CaptureEvent) : Prop :=
  limited = true ∧ ∃ before after, events = before ++ .drainLimit :: after ∧
    (∃ ending, (run limited before).phase = .draining ending) ∧
    ∀ stream, (run limited before).reader stream = (run limited events).reader stream

/-- What the phase of a capture says about its events and its readers. -/
def Explained (limited : Bool) (events : List CaptureEvent) (capture : Capture) : Prop :=
  match capture.phase with
  | .waiting => waitEnd? limited events = none
  | .draining ending => waitEnd? limited events = some (.ok ending) ∧ capture.awaited = none
  | .finished (.error (.child text)) => waitEnd? limited events = some (.error text)
  | .finished (.error (.reader fault)) =>
      WaitOver limited events ∧ capture.awaited = some (.error fault)
  | .finished (.ok ending) =>
      waitEnd? limited events = some (.ok ending) ∧ (capture.awaited = some (.ok ()) ∨
        (capture.awaited = none ∧ Abandoned limited events))

section Awaited

variable {capture : Capture} {fault : ReaderFault}

theorem awaited_eq_none_iff :
    capture.awaited = none ↔ capture.output.StillReading ∨
      (capture.output.ReachedEnd ∧ capture.errors.StillReading) := by
  unfold awaited Reader.StillReading Reader.ReachedEnd
  rcases capture.output.result with _ | _ | _ <;>
    rcases capture.errors.result with _ | _ | _ <;> simp [awaitReaders]

theorem awaited_eq_ok_iff :
    capture.awaited = some (.ok ()) ↔ ∀ stream, (capture.reader stream).ReachedEnd := by
  have streams : (∀ stream, (capture.reader stream).ReachedEnd) ↔
      capture.output.ReachedEnd ∧ capture.errors.ReachedEnd :=
    ⟨fun all => ⟨all .output, all .errors⟩, fun both stream => by
      cases stream
      · exact both.1
      · exact both.2⟩
  rw [streams]
  unfold awaited Reader.ReachedEnd
  rcases capture.output.result with _ | _ | _ <;>
    rcases capture.errors.result with _ | _ | _ <;> simp [awaitReaders]

theorem awaited_eq_error_iff :
    capture.awaited = some (.error fault) ↔ capture.output.FailedWith fault ∨
      (capture.output.ReachedEnd ∧ capture.errors.FailedWith fault) := by
  unfold awaited Reader.FailedWith Reader.ReachedEnd
  rcases capture.output.result with _ | _ | _ <;>
    rcases capture.errors.result with _ | _ | _ <;> simp [awaitReaders]

end Awaited

section History

variable {limited : Bool} {events : List CaptureEvent} {event : CaptureEvent}

theorem run_concat (limited : Bool) (events : List CaptureEvent) (event : CaptureEvent) :
    run limited (events ++ [event]) = (run limited events).step limited event := by
  rw [run, List.foldl_concat, ← run]

theorem waitEnd?_concat (limited : Bool) (events : List CaptureEvent) (event : CaptureEvent) :
    waitEnd? limited (events ++ [event]) =
      (waitEnd? limited events).or (event.endsWait? limited) := by
  rw [waitEnd?, List.findSome?_append, ← waitEnd?, List.findSome?_singleton]

theorem waitEnd?_concat_of_some {result : Except String (Option Ending)}
    (waited : waitEnd? limited events = some result) (event : CaptureEvent) :
    waitEnd? limited (events ++ [event]) = some result := by
  rw [waitEnd?_concat, waited, Option.some_or]

theorem Abandoned.concat (abandoned : Abandoned limited events)
    (same : run limited (events ++ [event]) = run limited events) :
    Abandoned limited (events ++ [event]) := by
  obtain ⟨isLimited, before, after, eventsEq, draining, kept⟩ := abandoned
  refine ⟨isLimited, before, after ++ [event], by simp [eventsEq], draining, ?_⟩
  rw [same]
  exact kept

end History

section Phases

variable {limited : Bool} {events : List CaptureEvent} {capture : Capture}

theorem phase_react_of_reading (limited : Bool) (capture : Capture) {event : CaptureEvent}
    (reading : event.isReading = true) : (capture.react limited event).phase = capture.phase := by
  cases event with
  | taken stream bytes => cases stream <;> rfl
  | supplied stream supply => cases stream <;> rfl
  | advanced stream =>
      simp only [react, advance_eq]
      cases (capture.reader stream).advance.1 <;> cases stream <;> rfl
  | childEnded | childLost | deadline | drainLimit => cases reading

/-- While the program is awaited, the event decides whether and how this wait ends. -/
theorem phase_react_of_waiting (waiting : capture.phase = .waiting) (limited : Bool)
    (event : CaptureEvent) :
    (capture.react limited event).phase =
      match event.endsWait? limited with
      | none => .waiting
      | some (.ok ending) => .draining ending
      | some (.error text) => .finished (.error (.child text)) := by
  cases event with
  | taken | supplied | advanced => exact (phase_react_of_reading limited capture rfl).trans waiting
  | childEnded | childLost => simp [react, waiting, CaptureEvent.endsWait?]
  | deadline | drainLimit => cases limited <;> simp [react, waiting, CaptureEvent.endsWait?]

/-- While the readers are awaited, only a drain limit that counts changes the phase. -/
theorem phase_react_of_draining {ending : Option Ending}
    (draining : capture.phase = .draining ending) {event : CaptureEvent}
    (stays : limited = true → event ≠ .drainLimit) :
    (capture.react limited event).phase = .draining ending := by
  cases event with
  | taken | supplied | advanced => exact (phase_react_of_reading limited capture rfl).trans draining
  | childEnded | childLost | deadline => simp [react, draining]
  | drainLimit =>
      cases limited with
      | false => simp [react, draining]
      | true => exact absurd rfl (stays rfl)

theorem settle_eq_self (waits : ∀ ending, capture.phase ≠ .draining ending) :
    capture.settle = capture := by
  unfold settle
  split
  · next ending phaseEq => exact absurd phaseEq (waits ending)
  · rfl
  · rfl

theorem settle_of_unsettled {ending : Option Ending} (draining : capture.phase = .draining ending)
    (unsettled : capture.awaited = none) : capture.settle = capture := by
  rw [awaited] at unsettled
  simp [settle, draining, unsettled]

theorem settle_of_ended {ending : Option Ending} (draining : capture.phase = .draining ending)
    (ended : capture.awaited = some (.ok ())) :
    capture.settle = { capture with phase := .finished (.ok ending) } := by
  rw [awaited] at ended
  simp [settle, draining, ended]

theorem settle_of_failed {ending : Option Ending} {fault : ReaderFault}
    (draining : capture.phase = .draining ending)
    (failed : capture.awaited = some (.error fault)) :
    capture.settle = { capture with phase := .finished (.error (.reader fault)) } := by
  rw [awaited] at failed
  simp [settle, draining, failed]

theorem explained_settle {ending : Option Ending}
    (waited : waitEnd? limited events = some (.ok ending))
    (draining : capture.phase = .draining ending) : Explained limited events capture.settle := by
  cases awaitedEq : capture.awaited with
  | none =>
      simp [Explained, settle_of_unsettled draining awaitedEq, draining, waited, awaitedEq]
  | some result =>
      cases result with
      | ok _ =>
          rw [settle_of_ended draining awaitedEq]
          exact ⟨waited, Or.inl awaitedEq⟩
      | error fault =>
          rw [settle_of_failed draining awaitedEq]
          exact ⟨⟨ending, waited⟩, awaitedEq⟩

theorem explained_step_of_waiting (waiting : (run limited events).phase = .waiting)
    (waits : waitEnd? limited events = none) (event : CaptureEvent) :
    Explained limited (events ++ [event]) ((run limited events).step limited event) := by
  have reacted := phase_react_of_waiting waiting limited event
  have stepEq : (run limited events).step limited event =
      ((run limited events).react limited event).settle := by
    simp [step, waiting]
  have decided : waitEnd? limited (events ++ [event]) = event.endsWait? limited := by
    rw [waitEnd?_concat, waits, Option.none_or]
  rw [stepEq]
  cases ends : event.endsWait? limited with
  | none =>
      rw [ends] at reacted decided
      rw [settle_eq_self (by simp [reacted])]
      simpa [Explained, reacted] using decided
  | some result =>
      rw [ends] at reacted decided
      cases result with
      | ok ending => exact explained_settle decided reacted
      | error text =>
          rw [settle_eq_self (by simp [reacted])]
          simpa [Explained, reacted] using decided

theorem step_drainLimit {ending : Option Ending} (draining : capture.phase = .draining ending) :
    capture.step true .drainLimit = { capture with phase := .finished (.ok ending) } := by
  simp [step, react, settle, draining]

theorem explained_step_of_draining {ending : Option Ending}
    (draining : (run limited events).phase = .draining ending)
    (waited : waitEnd? limited events = some (.ok ending))
    (unsettled : (run limited events).awaited = none) (event : CaptureEvent) :
    Explained limited (events ++ [event]) ((run limited events).step limited event) := by
  have waitedStill := waitEnd?_concat_of_some waited event
  by_cases limit : limited = true ∧ event = .drainLimit
  · obtain ⟨rfl, rfl⟩ := limit
    have abandoned : Abandoned true (events ++ [.drainLimit]) := by
      refine ⟨rfl, events, [], rfl, ⟨ending, draining⟩, ?_⟩
      intro stream
      rw [run_concat, step_drainLimit draining]
      exact ((run true events).reader_setPhase stream _).symm
    rw [step_drainLimit draining]
    exact ⟨waitedStill, Or.inr ⟨unsettled, abandoned⟩⟩
  · have stepEq : (run limited events).step limited event =
        ((run limited events).react limited event).settle := by
      simp [step, draining]
    rw [stepEq]
    exact explained_settle waitedStill (phase_react_of_draining draining (not_and.mp limit))

theorem explained_step_of_finished {result : Except CaptureFault (Option Ending)}
    (finished : (run limited events).phase = .finished result)
    (explained : Explained limited events (run limited events)) (event : CaptureEvent) :
    Explained limited (events ++ [event]) ((run limited events).step limited event) := by
  have stays : (run limited events).step limited event = run limited events := by
    simp [step, finished]
  rw [stays]
  unfold Explained at explained ⊢
  rw [finished] at explained ⊢
  cases result with
  | error fault =>
      cases fault with
      | child text => exact waitEnd?_concat_of_some explained event
      | reader fault =>
          obtain ⟨⟨ending, waited⟩, failed⟩ := explained
          exact ⟨⟨ending, waitEnd?_concat_of_some waited event⟩, failed⟩
  | ok ending =>
      obtain ⟨waited, all | ⟨unsettled, abandoned⟩⟩ := explained
      · exact ⟨waitEnd?_concat_of_some waited event, Or.inl all⟩
      · have same : run limited (events ++ [event]) = run limited events := by
          rw [run_concat, stays]
        exact ⟨waitEnd?_concat_of_some waited event, Or.inr ⟨unsettled, abandoned.concat same⟩⟩

theorem explained_run (limited : Bool) (events : List CaptureEvent) :
    Explained limited events (run limited events) := by
  induction events using List.reverseRecOn with
  | nil => rfl
  | append_singleton events event ih =>
      rw [run_concat]
      cases phaseEq : (run limited events).phase with
      | waiting =>
          refine explained_step_of_waiting phaseEq ?_ event
          simpa [Explained, phaseEq] using ih
      | draining ending =>
          have explained : waitEnd? limited events = some (.ok ending) ∧
              (run limited events).awaited = none := by
            simpa [Explained, phaseEq] using ih
          exact explained_step_of_draining phaseEq explained.1 explained.2 event
      | finished result => exact explained_step_of_finished phaseEq ih event

end Phases

section Results

variable {limited : Bool} {events : List CaptureEvent}

/-- A capture fails as soon as the wait for its readers meets a fault, and with that fault. -/
theorem result?_eq_reader_fault_iff {fault : ReaderFault} :
    (run limited events).result? = some (.error (.reader fault)) ↔
      WaitOver limited events ∧ (run limited events).awaited = some (.error fault) := by
  have explained := explained_run limited events
  unfold Explained at explained
  rw [result?_eq_error_iff]
  split at explained
  · next phaseEq => simp [phaseEq, explained, WaitOver]
  · next ending phaseEq => simp [phaseEq, explained]
  · next text phaseEq => simp [phaseEq, explained, WaitOver]
  · next other phaseEq => simp [phaseEq, explained]
  · next ending phaseEq =>
    rcases explained.2 with all | ⟨unsettled, -⟩
    · simp [phaseEq, all]
    · simp [phaseEq, unsettled]

/-- A fault of the wait for the program is reported exactly if it ends this wait. -/
theorem result?_eq_child_fault_iff {text : String} :
    (run limited events).result? = some (.error (.child text)) ↔
      waitEnd? limited events = some (.error text) := by
  have explained := explained_run limited events
  unfold Explained at explained
  rw [result?_eq_error_iff]
  split at explained
  · next phaseEq => simp [phaseEq, explained]
  · next ending phaseEq => simp [phaseEq, explained.1]
  · next other phaseEq => simp [phaseEq, explained]
  · next fault phaseEq =>
    obtain ⟨⟨ending, waited⟩, -⟩ := explained
    simp [phaseEq, waited]
  · next ending phaseEq => simp [phaseEq, explained.1]

/-- A capture that does not fail returns how the wait for the program ended, and it has seen
both readers come to their ends, or it has abandoned them. -/
theorem explained_of_result?_eq_ok {ending : Option Ending} {buffer : List UInt8}
    (returned : (run limited events).result? = some (.ok (ending, buffer))) :
    waitEnd? limited events = some (.ok ending) ∧
      ((∀ stream, ((run limited events).reader stream).ReachedEnd) ∨
        ((run limited events).awaited = none ∧ Abandoned limited events)) := by
  have explained := explained_run limited events
  rw [Explained, (result?_eq_ok_iff.mp returned).1] at explained
  exact explained.imp_right (Or.imp_left awaited_eq_ok_iff.mp)

theorem awaited_of_result?_eq_ok {value : Option Ending × List UInt8}
    (returned : (run limited events).result? = some (.ok value)) :
    (∀ stream, ((run limited events).reader stream).ReachedEnd) ∨
      ((run limited events).awaited = none ∧ Abandoned limited events) :=
  (explained_of_result?_eq_ok returned).2

theorem supply_of_reachedEnd {stream : Stream}
    (ended : ((run limited events).reader stream).ReachedEnd) :
    ((run limited events).reader stream).supply = .ended :=
  ((accounted_run limited events stream).emptied ended).1

theorem held_of_reachedEnd {stream : Stream}
    (ended : ((run limited events).reader stream).ReachedEnd) :
    ((run limited events).reader stream).held = [] :=
  ((accounted_run limited events stream).emptied ended).2

end Results

/-- What a caller expects of the result of a capture. -/
structure ReportsFaults (limited : Bool) (events : List CaptureEvent) : Prop where
  /-- If a reader has failed when the capture returns, the capture fails. -/
  failed : ∀ result, (run limited events).result? = some result →
    (∃ stream fault, ((run limited events).reader stream).FailedWith fault) →
    ∃ fault, result = .error fault
  /-- The capture succeeds only if each reader came to the end of its stream or was still
  reading when the drain limit came. -/
  succeeded : ∀ value, (run limited events).result? = some (.ok value) → ∀ stream,
    (((run limited events).reader stream).ReachedEnd ∧
        ((run limited events).reader stream).supply = .ended) ∨
      (((run limited events).reader stream).StillReading ∧ Abandoned limited events)
  /-- A buffer that is returned as a success lacks nothing that a reader has taken. -/
  complete : ∀ ending buffer, (run limited events).result? = some (.ok (ending, buffer)) →
    Merges (taken limited events) buffer

section Faults

variable {limited : Bool} {events : List CaptureEvent}

/-- The fault of a reader is lost if the drain limit comes while the other reader, which is
awaited first, is still reading. -/
def FaultOvertaken (capture : Capture) : Prop :=
  capture.output.StillReading ∧ ∃ fault, capture.errors.FailedWith fault

theorem not_reachedEnd_of_failedWith {reader : Reader} {fault : ReaderFault}
    (failed : reader.FailedWith fault) : ¬ reader.ReachedEnd := by
  intro ended
  rw [Reader.ReachedEnd, failed] at ended
  cases ended

theorem not_stillReading_of_failedWith {reader : Reader} {fault : ReaderFault}
    (failed : reader.FailedWith fault) : ¬ reader.StillReading := by
  intro reading
  rw [Reader.StillReading, failed] at reading
  cases reading

theorem reader_cases (reader : Reader) :
    reader.ReachedEnd ∨ (∃ fault, reader.FailedWith fault) ∨ reader.StillReading := by
  unfold Reader.ReachedEnd Reader.FailedWith Reader.StillReading
  rcases reader.result with _ | fault | _ <;> simp

/-- Of the readers that the drain limit abandons, none has failed unless the first one was
still reading. -/
theorem not_failedWith_of_awaited {capture : Capture} (unsettled : capture.awaited = none)
    (kept : ¬ capture.FaultOvertaken) (stream : Stream) (fault : ReaderFault) :
    ¬ (capture.reader stream).FailedWith fault := by
  intro failed
  rcases awaited_eq_none_iff.mp unsettled with reading | ⟨ended, reading⟩
  · cases stream with
    | output => exact not_stillReading_of_failedWith failed reading
    | errors => exact kept ⟨reading, fault, failed⟩
  · cases stream with
    | output => exact not_reachedEnd_of_failedWith failed ended
    | errors => exact not_stillReading_of_failedWith failed reading

theorem not_failedWith_of_result?_eq_ok {value : Option Ending × List UInt8}
    (returned : (run limited events).result? = some (.ok value))
    (kept : ¬ (run limited events).FaultOvertaken) (stream : Stream) (fault : ReaderFault) :
    ¬ ((run limited events).reader stream).FailedWith fault := by
  rcases awaited_of_result?_eq_ok returned with all | ⟨unsettled, -⟩
  · exact fun failed => not_reachedEnd_of_failedWith failed (all stream)
  · exact not_failedWith_of_awaited unsettled kept stream fault

theorem reportsFaults_of_kept
    (kept : ∀ value, (run limited events).result? = some (.ok value) →
      ¬ (run limited events).FaultOvertaken ∧
        ∀ stream, ((run limited events).reader stream).held = []) :
    ReportsFaults limited events where
  failed := by
    rintro (fault | value) returned ⟨stream, fault, failed⟩
    · exact ⟨_, rfl⟩
    · exact absurd failed
        (not_failedWith_of_result?_eq_ok returned (kept value returned).1 stream fault)
  succeeded := by
    intro value returned stream
    rcases reader_cases ((run limited events).reader stream) with ended | ⟨fault, failed⟩ | reading
    · exact Or.inl ⟨ended, supply_of_reachedEnd ended⟩
    · exact absurd failed
        (not_failedWith_of_result?_eq_ok returned (kept value returned).1 stream fault)
    · rcases awaited_of_result?_eq_ok returned with all | ⟨-, abandoned⟩
      · have ended : some (Except.ok ()) = none := (all stream).symm.trans reading
        cases ended
      · exact Or.inr ⟨reading, abandoned⟩
  complete := by
    intro ending buffer returned
    rw [eq_bytes_of_result? returned]
    exact (merges_taken_iff limited events).mpr (kept _ returned).2

theorem ReportsFaults.kept (reports : ReportsFaults limited events)
    {value : Option Ending × List UInt8}
    (returned : (run limited events).result? = some (.ok value)) :
    ¬ (run limited events).FaultOvertaken ∧
      ∀ stream, ((run limited events).reader stream).held = [] := by
  constructor
  · rintro ⟨-, fault, failed⟩
    obtain ⟨reported, isError⟩ := reports.failed _ returned ⟨.errors, fault, failed⟩
    cases isError
  · have merges := reports.complete value.1 value.2 returned
    rw [eq_bytes_of_result? returned] at merges
    exact (merges_taken_iff limited events).mp merges

end Faults

/-- A capture reports its faults exactly if, whenever it succeeds, no fault was overtaken
by the drain limit and no reader holds anything.  It fails exactly if its readers are
awaited and the wait meets a fault, or the wait for the program ended with one; and unless
it abandons its readers it always reports its faults. -/
theorem reportsFaults_iff (limited : Bool) (events : List CaptureEvent) :
    (ReportsFaults limited events ↔
      ∀ value, (run limited events).result? = some (.ok value) →
        ¬ (run limited events).FaultOvertaken ∧
          ∀ stream, ((run limited events).reader stream).held = []) ∧
    (∀ fault, (run limited events).result? = some (.error (.reader fault)) ↔
      WaitOver limited events ∧ ((run limited events).output.FailedWith fault ∨
        ((run limited events).output.ReachedEnd ∧
          (run limited events).errors.FailedWith fault))) ∧
    (∀ text, (run limited events).result? = some (.error (.child text)) ↔
      waitEnd? limited events = some (.error text)) ∧
    (¬ Abandoned limited events → ReportsFaults limited events) := by
  refine ⟨⟨fun reports value => reports.kept, reportsFaults_of_kept⟩, ?_,
    fun text => result?_eq_child_fault_iff, ?_⟩
  · intro fault
    rw [result?_eq_reader_fault_iff, awaited_eq_error_iff]
  · intro stays
    apply reportsFaults_of_kept
    intro value returned
    have all := (awaited_of_result?_eq_ok returned).resolve_right fun left => stays left.2
    refine ⟨?_, fun stream => held_of_reachedEnd (all stream)⟩
    rintro ⟨-, fault, failed⟩
    exact not_reachedEnd_of_failedWith failed (all .errors)

/-- The reader of the error stream has failed, and the other stream is kept open: at the
drain limit the fault is lost.  What that reader held without a newline is lost in the same
way if it did not fail. -/
theorem drain_limit_hides_fault :
    let broken : List CaptureEvent :=
      [.taken .errors [112, 97, 114, 116], .supplied .errors (.failing (.broken "pipe broke")),
        .advanced .errors, .childEnded (.exited 0), .deadline, .drainLimit]
    let held : List CaptureEvent :=
      [.taken .errors [112, 97, 114, 116], .childEnded (.exited 0), .deadline, .drainLimit]
    (run true broken).result? = some (.ok (some (.exited 0), [])) ∧
      (run true broken).errors.FailedWith (.broken "pipe broke") ∧
      ¬ ReportsFaults true broken ∧
      (run true held).result? = some (.ok (some (.exited 0), [])) ∧
      taken true held .errors = [112, 97, 114, 116] ∧
      ¬ ReportsFaults true held := by
  intro broken held
  refine ⟨rfl, rfl, ?_, rfl, rfl, ?_⟩
  · intro reports
    obtain ⟨fault, isError⟩ :=
      reports.failed _ rfl ⟨.errors, .broken "pipe broke", rfl⟩
    cases isError
  · intro reports
    have lengths := (reports.complete (some (.exited 0)) [] rfl).length_eq
    revert lengths
    decide

end Capture

end CaseHarness
