import CaseHarness.Run.Case
import CaseHarness.Run.Target
import CaseHarness.Text.Quoted

/-!
# Runs

A run loads a test case, runs the program, shows what it wrote, verifies it,
prints the verdict and writes the report.  Whatever goes wrong with the test
case is found before the program starts.
-/

namespace CaseHarness

/-- Everything that a run needs to know. -/
structure Plan where
  /-- The program and its arguments. -/
  command : List String
  /-- The path of the test-case file. -/
  testCase : String
  limit : Option Duration := none
  /-- Where the report is written. -/
  report : Option String := none
  verbose : Bool := false
  /-- The tag of the language of headers, failures and summaries. -/
  tag : String
  deriving DecidableEq, Repr

namespace Plan

def prepare (plan : Plan) (files : Tree) (directory : Location) :
    Except FatalError (TestCase × Expectations) :=
  match TestCase.load files directory plan.testCase with
  | .error fatal => .error fatal
  | .ok case =>
      match Expectations.ofCase case with
      | .error fault => .error (.invalidExitCode fault.line fault.value)
      | .ok expectations => .ok (case, expectations)

/-- Print the header of a verbose run. -/
def announce (plan : Plan) (case : TestCase) (session : Session) : Session :=
  if plan.verbose then
    session.print (Console.header plan.tag (Text.Quoted.commandLine (case.arguments plan.command))
      case.directory plan.limit)
  else session

/-- Write the report of a run, if one is wanted. -/
def writeReport (plan : Plan) (report : Report) (session : Session) :
    Session × Except FatalError Unit :=
  match plan.report with
  | none => (session, .ok ())
  | some path =>
      match session.files.write session.directory path (Text.Utf8.encode report.text) with
      | .error cause => (session, .error (.reportUnwritable path cause))
      | .ok files =>
          let reported := ({ session with files := files }).perform (.reported path report)
          (if plan.verbose then reported.print [Console.reportNotice plan.tag path] else reported,
            .ok ())

/-- Show and verify what a program did, and write the report. -/
def conclude (plan : Plan) (case : TestCase) (expectations : Expectations)
    (execution : Execution) (session : Session) : Session × Result Outcome :=
  let echoed := session.print [.output execution.output]
  let outcome := Verification.verify expectations execution
  let printed := echoed.print
    (Console.outcome plan.tag case.name execution.output outcome)
  match plan.writeReport (.ofRun case plan.command expectations execution outcome) printed with
  | (final, .ok ()) => (final, .done outcome)
  | (final, .error fatal) => (final, .failed fatal)

def execute (plan : Plan) (launch : Launcher) (session : Session) : Session × Result Outcome :=
  match plan.prepare session.files session.directory with
  | .error fatal => (session, .failed fatal)
  | .ok (case, expectations) =>
      let announced := plan.announce case session
      match runTarget launch case plan.command plan.limit announced with
      | (after, .done execution) => plan.conclude case expectations execution after
      | (after, .failed fatal) => (after, .failed fatal)
      | (after, .aborted) => (after, .aborted)
      | (after, .endless) => (after, .endless)

end Plan

end CaseHarness
