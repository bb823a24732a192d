import CaseHarness.Files.Tree
import CaseHarness.Process.Capture

/-!
# Launching programs

A launcher is whatever starts programs.  It either fails, or tells all that
happens while the output of the program is captured.  It also tells how far the
clock of the system goes on from there, for a limit is kept by the moment at
which it is reached.  The half second of grace that the readers get at the end
is too short to come near the end of the clock.
-/

namespace CaseHarness

/-- A program to be started. -/
structure Request where
  /-- A bare name that is looked up, or the path of the program. -/
  program : String
  arguments : List String
  /-- The path of the directory in which the program runs. -/
  directory : String
  /-- The time after which the program is killed. -/
  limit : Option Duration
  deriving DecidableEq, Repr

/-- The longest time in nanoseconds that a clock can show: its seconds are a signed number of
64 bits. -/
def clockRange : Nat :=
  Nat.pow 2 63 * 1000000000 - 1

/-- What happened after a program had been started. -/
structure Launched where
  /-- The events of the capture. -/
  events : List CaptureEvent
  /-- How many nanoseconds the capture took. -/
  elapsed : Nat
  /-- The files as the program leaves them. -/
  files : Tree
  /-- How many nanoseconds the clock could go on when the program had been started. -/
  clockLeft : Nat := clockRange
  deriving Repr

/-- Whether the moment at which the limit is reached is one that the clock cannot show. -/
def Launched.overruns (limit : Option Duration) (launched : Launched) : Bool :=
  match limit with
  | none => false
  | some time => launched.clockLeft < time.total

/-- What starts programs. -/
abbrev Launcher :=
  Tree → Request → Except FileError Launched

end CaseHarness
