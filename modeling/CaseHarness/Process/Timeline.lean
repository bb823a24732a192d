import CaseHarness.Process.Capture

/-!
# Timelines

A timeline tells when a program and the processes it leaves behind write, when
the last holder of each stream lets go of it, and when the program ends.  It
determines the order of the events of a capture: the readers follow at once, the
deadline falls when the time of the program is over, and the drain limit falls
at the deadline or half a second after the program has ended or been killed,
whichever is later.  Times are in nanoseconds.
-/

namespace CaseHarness

/-- What a program does, seen from outside. -/
structure Timeline where
  /-- What is written, in order of time. -/
  writes : List (Nat × Stream × List UInt8)
  /-- When the standard output ends. -/
  outputEnd : Nat
  /-- When the standard error output ends. -/
  errorsEnd : Nat
  /-- When and how the program ends, if it is not killed before. -/
  ending : Option (Nat × Ending)
  deriving Repr

namespace Timeline

/-- The least time that is left for the readers once the program has ended. -/
def drainGrace : Nat :=
  500000000

/-- The events of a reader that takes bytes and appends all lines they complete. -/
def readingEvents (stream : Stream) (bytes : List UInt8) : List CaptureEvent :=
  .taken stream bytes ::
    List.replicate (bytes.count Reader.newline) (.advanced stream)

/-- The events of a reader that comes to the end of its stream. -/
def endEvents (stream : Stream) : List CaptureEvent :=
  [.supplied stream .ended, .advanced stream, .advanced stream]

/-- When the wait for the program is over. -/
def waitEnd (timeline : Timeline) (limit : Option Nat) : Nat :=
  match timeline.ending, limit with
  | some (moment, _), some deadline => min moment deadline
  | some (moment, _), none => moment
  | none, some deadline => deadline
  | none, none => 0

/-- When the readers are abandoned. -/
def drainEnd (timeline : Timeline) (deadline : Nat) : Nat :=
  max deadline (timeline.waitEnd (some deadline) + drainGrace)

/-- The events with their times, in the order in which those of one time happen. -/
def timedEvents (timeline : Timeline) (limit : Option Nat) : List (Nat × List CaptureEvent) :=
  (timeline.writes.map fun (moment, stream, bytes) => (moment, readingEvents stream bytes)) ++
    [(timeline.outputEnd, endEvents .output), (timeline.errorsEnd, endEvents .errors)] ++
    (timeline.ending.toList.map fun (moment, ending) => (moment, [.childEnded ending])) ++
    match limit with
    | none => []
    | some deadline => [(deadline, [.deadline]), (timeline.drainEnd deadline, [.drainLimit])]

def events (timeline : Timeline) (limit : Option Nat) : List CaptureEvent :=
  ((timeline.timedEvents limit).mergeSort fun first second => first.1 ≤ second.1).flatMap Prod.snd

/-- How long a capture of the program takes. -/
def elapsed (timeline : Timeline) (limit : Option Nat) : Nat :=
  let drained := max (timeline.waitEnd limit) (max timeline.outputEnd timeline.errorsEnd)
  match limit with
  | none => drained
  | some deadline => min drained (timeline.drainEnd deadline)

end Timeline

end CaseHarness
