import CaseHarness.Expectations

/-!
# Verification

A run of a program is compared with the expectations of a test case.  The
checks are matched in order against the lines of the output: each one takes the
first line not yet passed that contains its pattern, and a check without such a
line is a miss that leaves the position alone.  A problem with the way the
program ended is reported alone; otherwise every miss is.
-/

namespace CaseHarness

/-- How a program ended. -/
inductive Termination where
  /-- It ended by itself with an exit code. -/
  | exited (code : Int)
  /-- A signal ended it. -/
  | signaled (signal : Int)
  /-- It was killed because its time was over. -/
  | timedOut (milliseconds : Nat)
  deriving DecidableEq, Repr

namespace Termination

/-- The code that expectations are compared with: a signal counts as its negative,
and a program that was killed for lack of time has none. -/
def effectiveCode? : Termination → Option Int
  | exited code => some code
  | signaled signal => some (-signal)
  | timedOut _ => none

/-- Whether the program was killed because its time was over. -/
def isTimeout : Termination → Bool
  | timedOut _ => true
  | exited _ | signaled _ => false

end Termination

/-- A length of time in whole seconds and nanoseconds. -/
structure Duration where
  seconds : Nat := 0
  nanoseconds : Nat := 0
  deriving DecidableEq, Repr

namespace Duration

/-- The whole milliseconds of a length of time, in 64 bits. -/
def milliseconds (duration : Duration) : Nat :=
  (duration.seconds * 1000 + duration.nanoseconds / 1000000) % Nat.pow 2 64

/-- The length of time in nanoseconds. -/
def total (duration : Duration) : Nat :=
  duration.seconds * 1000000000 + duration.nanoseconds

/-- A length of time given in nanoseconds. -/
def ofNanoseconds (total : Nat) : Duration :=
  ⟨total / 1000000000, total % 1000000000⟩

/-- A length of time given in seconds and nanoseconds; nanoseconds that make up whole
seconds are counted as such. -/
def ofParts (seconds nanoseconds : Nat) : Duration :=
  ⟨seconds + nanoseconds / 1000000000, nanoseconds % 1000000000⟩

/-- Carrying nanoseconds over to the seconds leaves the length as it is. -/
@[simp]
theorem total_ofParts (seconds nanoseconds : Nat) :
    (ofParts seconds nanoseconds).total = seconds * 1000000000 + nanoseconds := by
  simp only [total, ofParts]
  omega

end Duration

/-- What was captured from one run of a program. -/
structure Execution where
  /-- Both output streams, merged. -/
  output : String
  termination : Termination
  duration : Duration := {}
  deriving DecidableEq, Repr

/-- The lines of the captured output. -/
def Execution.lines (execution : Execution) : List String :=
  Text.lines execution.output

/-- One way in which a run did not meet the expectations. -/
inductive Failure where
  /-- No remaining line of the output contains the pattern of a check. -/
  | checkNotFound (line : Nat) (pattern : String)
  /-- The program failed although exit code zero was expected. -/
  | nonZeroExit (actual : Int)
  /-- The program ended with another code than the one expected. -/
  | exitCodeMismatch (actual expected : Int)
  /-- The program succeeded although it was expected to abort. -/
  | unexpectedSuccess
  /-- The program was killed because its time was over. -/
  | timedOut (milliseconds : Nat)
  deriving DecidableEq, Repr

/-- Whether the whole output is shown once more beside the failure. -/
def Failure.wantsOutput : Failure → Bool
  | nonZeroExit _ => true
  | checkNotFound .. | exitCodeMismatch .. | unexpectedSuccess | timedOut _ => false

/-- The failures of one run; none means that the test case passed. -/
structure Outcome where
  failures : List Failure := []
  deriving DecidableEq, Repr

namespace Outcome

/-- Whether the test case passed. -/
def passed (outcome : Outcome) : Bool :=
  outcome.failures.isEmpty

def exitStatus (outcome : Outcome) : Nat :=
  if outcome.passed then 0 else 1

end Outcome

namespace Verification

/-- The lines that follow the first line that contains a pattern. -/
def remainingAfter? (pattern : String) : List String → Option (List String)
  | [] => none
  | line :: rest =>
      if Text.occursIn pattern.toList line.toList then some rest
      else remainingAfter? pattern rest

/-- The checks that find no line, as failures in file order. -/
def misses : List Check → List String → List Failure
  | [], _ => []
  | check :: checks, lines =>
      match remainingAfter? check.pattern lines with
      | some rest => misses checks rest
      | none => .checkNotFound check.line check.pattern :: misses checks lines

/-- What is wrong with the code a program ended with. -/
def codeFailure? (expectations : Expectations) (actual : Int) : Option Failure :=
  if expectations.abort then
    if actual = 0 then some .unexpectedSuccess else none
  else if actual = expectations.exitCode then none
  else if expectations.exitCode = 0 then some (.nonZeroExit actual)
  else some (.exitCodeMismatch actual expectations.exitCode)

/-- Compare a run with the expectations. -/
def verify (expectations : Expectations) (execution : Execution) : Outcome :=
  match execution.termination with
  | .timedOut milliseconds => ⟨[.timedOut milliseconds]⟩
  | .exited _ | .signaled _ =>
      match codeFailure? expectations (execution.termination.effectiveCode?.getD 0) with
      | some failure => ⟨[failure]⟩
      | none => ⟨misses expectations.checks execution.lines⟩

@[simp]
theorem misses_nil (lines : List String) : misses [] lines = [] :=
  rfl

end Verification

end CaseHarness
