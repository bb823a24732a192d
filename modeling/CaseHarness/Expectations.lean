import CaseHarness.Directive
import CaseHarness.TestCase

/-!
# Expectations

The directives of a test case, taken together: the checks in file order with
their line numbers, the last exit code that was given, and whether an abort is
expected.  Reading stops at the first exit directive with an invalid value.
-/

namespace CaseHarness

/-- A check directive and the number of its line, counted from one. -/
structure Check where
  line : Nat
  pattern : String
  deriving DecidableEq, Repr

/-- What a run has to satisfy. -/
structure Expectations where
  /-- The checks in file order. -/
  checks : List Check := []
  /-- The exit code of a run that is not expected to abort. -/
  exitCode : Int := 0
  /-- Whether the program is expected to end abnormally. -/
  abort : Bool := false
  deriving DecidableEq, Repr

/-- The first exit directive of a test case whose value is invalid. -/
structure MalformedExit where
  line : Nat
  value : String
  deriving DecidableEq, Repr

namespace Expectations

def add (expectations : Expectations) (line : Nat) : Directive → Expectations
  | .check pattern => { expectations with checks := expectations.checks ++ [⟨line, pattern⟩] }
  | .exitCode code => { expectations with exitCode := code }
  | .abort => { expectations with abort := true }

/-- Add the directives of further lines, the first of which has the given number. -/
def addLines (expectations : Expectations) (number : Nat) :
    List String → Except MalformedExit Expectations
  | [] => .ok expectations
  | line :: rest =>
      match Directive.ofLine line with
      | .error fault => .error ⟨number, fault.value⟩
      | .ok none => addLines expectations (number + 1) rest
      | .ok (some directive) => addLines (expectations.add number directive) (number + 1) rest

/-- The expectations that the lines of a test case state. -/
def ofCase (case : TestCase) : Except MalformedExit Expectations :=
  addLines {} 1 case.lines

@[simp]
theorem addLines_nil (expectations : Expectations) (number : Nat) :
    addLines expectations number [] = .ok expectations :=
  rfl

end Expectations

end CaseHarness
