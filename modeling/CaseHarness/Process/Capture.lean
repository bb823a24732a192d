import CaseHarness.Verification

/-!
# Capturing the output of a program

The program under test writes to two streams.  Each stream has a reader, which
takes bytes from its pipe as they come and appends them to one common buffer,
a whole line at a time; what follows the last newline of a stream is appended
when the stream has ended.

The capture first waits for the program, then for the readers, one after the
other.  If the run is limited in time, a deadline ends the first wait by killing
the program, and a drain limit ends the second one by abandoning the readers.
The first wait and the killing can fail, and then the capture fails at once,
whatever the readers do.  A capture is a machine driven by events in any order.
-/

namespace CaseHarness

/-- The two output streams of a program. -/
inductive Stream where
  | output
  | errors
  deriving DecidableEq, Repr

/-- Why a reader gave up. -/
inductive ReaderFault where
  /-- Reading from the pipe failed. -/
  | broken (text : String)
  /-- The reader itself failed. -/
  | crashed
  deriving DecidableEq, Repr

/-- Why a capture fails. -/
inductive CaptureFault where
  /-- A reader failed. -/
  | reader (fault : ReaderFault)
  /-- The program could not be waited for, or it could not be killed. -/
  | child (text : String)
  deriving DecidableEq, Repr

/-- How a process ends when nobody kills it for lack of time. -/
inductive Ending where
  | exited (code : Int)
  | signaled (signal : Int)
  deriving DecidableEq, Repr

/-- The termination of a program that ended by itself. -/
def Ending.termination : Ending → Termination
  | exited code => .exited code
  | signaled signal => .signaled signal

/-- What a reader will find in its pipe after the bytes it has taken. -/
inductive Supply where
  /-- More bytes may come. -/
  | flowing
  /-- The stream has ended. -/
  | ended
  /-- The next attempt to read fails. -/
  | failing (fault : ReaderFault)
  deriving DecidableEq, Repr

/-- The reader of one stream. -/
structure Reader where
  /-- The bytes taken from the pipe that are not in the buffer yet. -/
  held : List UInt8 := []
  supply : Supply := .flowing
  /-- How the reader finished, if it has. -/
  result : Option (Except ReaderFault Unit) := none

namespace Reader

/-- The byte that ends a line. -/
def newline : UInt8 :=
  10

/-- The first whole line and what follows it. -/
def firstLine? : List UInt8 → Option (List UInt8 × List UInt8)
  | [] => none
  | byte :: rest =>
      if byte = newline then some ([byte], rest)
      else (firstLine? rest).map fun (line, others) => (byte :: line, others)

def take (reader : Reader) (bytes : List UInt8) : Reader :=
  match reader.supply, reader.result with
  | .flowing, none => { reader with held := reader.held ++ bytes }
  | _, _ => reader

/-- Learn how the pipe goes on. -/
def learn (reader : Reader) (supply : Supply) : Reader :=
  match reader.supply with
  | .flowing => { reader with supply := supply }
  | _ => reader

/-- One step of a reader: the piece it appends to the buffer, if any, and its next state. -/
def advance (reader : Reader) : Option (List UInt8) × Reader :=
  match reader.result with
  | some _ => (none, reader)
  | none =>
      match firstLine? reader.held with
      | some (line, rest) => (some line, { reader with held := rest })
      | none =>
          match reader.supply with
          | .flowing => (none, reader)
          | .ended =>
              if reader.held = [] then (none, { reader with result := some (.ok ()) })
              else (some reader.held, { reader with held := [] })
          | .failing fault => (none, { reader with result := some (.error fault) })

/-- The first line and what follows it make up the bytes. -/
theorem firstLine?_append {bytes line rest : List UInt8}
    (found : firstLine? bytes = some (line, rest)) : line ++ rest = bytes := by
  induction bytes generalizing line rest with
  | nil => simp [firstLine?] at found
  | cons byte bytes ih =>
      unfold firstLine? at found
      split at found
      · cases found
        rfl
      · cases tailEq : firstLine? bytes with
        | none => simp [tailEq] at found
        | some pair =>
            rw [tailEq] at found
            cases found
            have joined : pair.1 ++ pair.2 = bytes := ih tailEq
            simp [joined]

end Reader

/-- Wait for readers in order; the first one that failed decides. -/
def awaitReaders : List (Option (Except ReaderFault Unit)) → Option (Except ReaderFault Unit)
  | [] => some (.ok ())
  | none :: _ => none
  | some (.error fault) :: _ => some (.error fault)
  | some (.ok _) :: others => awaitReaders others

/-- What a capture is doing. -/
inductive Phase where
  /-- Waiting for the program to end. -/
  | waiting
  /-- Waiting for the readers; the program ended like this, or was killed. -/
  | draining (ending : Option Ending)
  /-- Finished, with the ending of the program or with a fault. -/
  | finished (result : Except CaptureFault (Option Ending))

/-- A capture in progress. -/
structure Capture where
  output : Reader := {}
  errors : Reader := {}
  /-- What has been appended to the common buffer, each piece with its stream and the
  latest first. -/
  appended : List (Stream × List UInt8) := []
  phase : Phase := .waiting

/-- What can happen during a capture. -/
inductive CaptureEvent where
  /-- A reader takes bytes from its pipe. -/
  | taken (stream : Stream) (bytes : List UInt8)
  /-- A reader learns that its stream has ended or that reading fails. -/
  | supplied (stream : Stream) (supply : Supply)
  /-- A reader makes one step. -/
  | advanced (stream : Stream)
  /-- The program ends. -/
  | childEnded (ending : Ending)
  /-- Waiting for the program fails, or killing it once its time is over. -/
  | childLost (text : String)
  /-- The time of the program is over. -/
  | deadline
  /-- The time of the readers is over. -/
  | drainLimit
  deriving DecidableEq, Repr

namespace Capture

def reader (capture : Capture) : Stream → Reader
  | .output => capture.output
  | .errors => capture.errors

def setReader (capture : Capture) (stream : Stream) (reader : Reader) : Capture :=
  match stream with
  | .output => { capture with output := reader }
  | .errors => { capture with errors := reader }

/-- Let a reader make one step. -/
def advance (capture : Capture) (stream : Stream) : Capture :=
  let moved := (capture.reader stream).advance
  let next := capture.setReader stream moved.2
  match moved.1 with
  | none => next
  | some piece => { next with appended := (stream, piece) :: next.appended }

/-- Finish if the capture waits for the readers only and they have finished. -/
def settle (capture : Capture) : Capture :=
  match capture.phase with
  | .draining ending =>
      match awaitReaders [capture.output.result, capture.errors.result] with
      | none => capture
      | some (.ok _) => { capture with phase := .finished (.ok ending) }
      | some (.error fault) => { capture with phase := .finished (.error (.reader fault)) }
  | .waiting | .finished _ => capture

/-- The direct effect of an event; `limited` says whether the run is limited in time. -/
def react (limited : Bool) (capture : Capture) : CaptureEvent → Capture
  | .taken stream bytes => capture.setReader stream ((capture.reader stream).take bytes)
  | .supplied stream supply => capture.setReader stream ((capture.reader stream).learn supply)
  | .advanced stream => capture.advance stream
  | .childEnded ending =>
      match capture.phase with
      | .waiting => { capture with phase := .draining (some ending) }
      | .draining _ | .finished _ => capture
  | .childLost text =>
      match capture.phase with
      | .waiting => { capture with phase := .finished (.error (.child text)) }
      | .draining _ | .finished _ => capture
  | .deadline =>
      match limited, capture.phase with
      | true, .waiting => { capture with phase := .draining none }
      | _, _ => capture
  | .drainLimit =>
      match limited, capture.phase with
      | true, .draining ending => { capture with phase := .finished (.ok ending) }
      | _, _ => capture

/-- What an event does to a capture; nothing happens after the end. -/
def step (limited : Bool) (capture : Capture) (event : CaptureEvent) : Capture :=
  match capture.phase with
  | .finished _ => capture
  | .waiting | .draining _ => (capture.react limited event).settle

def run (limited : Bool) (events : List CaptureEvent) : Capture :=
  events.foldl (step limited) {}

/-- The pieces in the common buffer, in order. -/
def pieces (capture : Capture) : List (Stream × List UInt8) :=
  capture.appended.reverse

/-- The bytes of the common buffer. -/
def bytes (capture : Capture) : List UInt8 :=
  capture.pieces.flatMap Prod.snd

/-- The bytes of one stream in the common buffer. -/
def bytesOf (capture : Capture) (stream : Stream) : List UInt8 :=
  (capture.pieces.filter fun piece => piece.1 = stream).flatMap Prod.snd

/-- The result of a capture that has finished: how the program ended, and the buffer. -/
def result? (capture : Capture) : Option (Except CaptureFault (Option Ending × List UInt8)) :=
  match capture.phase with
  | .finished (.ok ending) => some (.ok (ending, capture.bytes))
  | .finished (.error fault) => some (.error fault)
  | .waiting | .draining _ => none

section Results

variable {capture : Capture} {ending : Option Ending} {buffer : List UInt8} {fault : CaptureFault}

theorem result?_eq_ok_iff :
    capture.result? = some (.ok (ending, buffer)) ↔
      capture.phase = .finished (.ok ending) ∧ buffer = capture.bytes := by
  unfold result?
  split
  · next phaseEq => simp [phaseEq, eq_comm]
  · next phaseEq => simp [phaseEq]
  · next phaseEq => simp [phaseEq]
  · next phaseEq => simp [phaseEq]

theorem result?_eq_error_iff :
    capture.result? = some (.error fault) ↔ capture.phase = .finished (.error fault) := by
  unfold result?
  split
  · next phaseEq => simp [phaseEq]
  · next phaseEq => simp [phaseEq]
  · next phaseEq => simp [phaseEq]
  · next phaseEq => simp [phaseEq]

end Results

/-- A capture that has finished stays as it is. -/
theorem foldl_step_of_finished {limited : Bool} {capture : Capture}
    {result : Except CaptureFault (Option Ending)} (finished : capture.phase = .finished result)
    (events : List CaptureEvent) : events.foldl (step limited) capture = capture := by
  induction events with
  | nil => rfl
  | cons event events ih =>
      have unchanged : step limited capture event = capture := by simp [step, finished]
      rw [List.foldl_cons, unchanged, ih]

end Capture

end CaseHarness
