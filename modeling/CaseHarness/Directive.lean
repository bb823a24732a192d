import CaseHarness.Text.Blank
import CaseHarness.Text.Numeral
import CaseHarness.Text.Search

/-!
# Directives

A line of a test case is a directive if it begins with one of three openings;
every other line is plain text.  `Directive.ofLine` reads one line.
-/

namespace CaseHarness

/-- What a line of a test case asks for. -/
inductive Directive where
  /-- Some line of the output contains the pattern. -/
  | check (pattern : String)
  /-- The program ends with this exit code. -/
  | exitCode (code : Int)
  /-- The program does not end with exit code zero. -/
  | abort
  deriving DecidableEq, Repr

/-- An exit directive whose trimmed value is not a signed number of 32 bits. -/
structure InvalidExitCode where
  value : String
  deriving DecidableEq, Repr

namespace Directive

def checkOpening : List Char :=
  "# CHECK: ".toList

def exitOpening : List Char :=
  "# EXIT ".toList

def abortOpening : List Char :=
  "# ABORT".toList

def ofExitValue (value : List Char) : Except InvalidExitCode Directive :=
  let trimmed := Text.trim value
  match Text.Numeral.int32? trimmed with
  | some code => .ok (.exitCode code)
  | none => .error ⟨String.ofList trimmed⟩

/-- Read one line; a line of plain text gives no directive. -/
def ofLine (line : String) : Except InvalidExitCode (Option Directive) :=
  match Text.after? checkOpening line.toList with
  | some pattern => .ok (some (.check (String.ofList pattern)))
  | none =>
      match Text.after? exitOpening line.toList with
      | some value => (ofExitValue value).map some
      | none =>
          if (Text.after? abortOpening line.toList).isSome then .ok (some .abort)
          else .ok none

end Directive

end CaseHarness
