import CaseHarness.Json
import CaseHarness.Verification

/-!
# Reports

A report is a record of one verified run: what was run, what was expected, how
the program ended and what failed.  It is written as one JSON object whose
fields stand in a fixed order; alternatives carry their `kind` first.
-/

namespace CaseHarness

def Termination.json : Termination → Json
  | exited code => .object [("kind", .text "exited"), ("code", .number code)]
  | signaled signal => .object [("kind", .text "signaled"), ("signal", .number signal)]
  | timedOut milliseconds =>
      .object [("kind", .text "timed_out"), ("after_ms", .number milliseconds)]

def Failure.json : Failure → Json
  | checkNotFound line pattern =>
      .object [("kind", .text "check_not_found"), ("line", .number line),
        ("pattern", .text pattern)]
  | nonZeroExit actual => .object [("kind", .text "non_zero_exit"), ("actual", .number actual)]
  | exitCodeMismatch actual expected =>
      .object [("kind", .text "exit_code_mismatch"), ("actual", .number actual),
        ("expected", .number expected)]
  | unexpectedSuccess => .object [("kind", .text "unexpected_success")]
  | timedOut milliseconds =>
      .object [("kind", .text "timed_out"), ("after_ms", .number milliseconds)]

def Check.json (check : Check) : Json :=
  .object [("line", .number check.line), ("pattern", .text check.pattern)]

def Expectations.json (expectations : Expectations) : Json :=
  .object [("checks", .list (expectations.checks.map Check.json)),
    ("exit_code", .number expectations.exitCode), ("expect_abort", .bool expectations.abort)]

/-- The record of one verified run. -/
structure Report where
  /-- The path of the test-case file. -/
  testCase : String
  /-- The words handed to the program. -/
  command : List String
  passed : Bool
  expectations : Expectations
  termination : Termination
  /-- The code that was compared, if the program was not killed for lack of time. -/
  exitCode : Option Int
  durationMilliseconds : Nat
  failures : List Failure
  deriving DecidableEq, Repr

namespace Report

def ofRun (case : TestCase) (command : List String) (expectations : Expectations)
    (execution : Execution) (outcome : Outcome) : Report where
  testCase := case.path
  command := case.arguments command
  passed := outcome.passed
  expectations := expectations
  termination := execution.termination
  exitCode := execution.termination.effectiveCode?
  durationMilliseconds := execution.duration.milliseconds
  failures := outcome.failures

def json (report : Report) : Json :=
  .object
    [("test_case", .text report.testCase),
      ("command", .list (report.command.map .text)),
      ("passed", .bool report.passed),
      ("expectations", report.expectations.json),
      ("termination", report.termination.json),
      ("exit_code", match report.exitCode with
        | some code => .number code
        | none => .null),
      ("duration_ms", .number report.durationMilliseconds),
      ("failures", .list (report.failures.map Failure.json))]

def text (report : Report) : String :=
  report.json.pretty

end Report

end CaseHarness
