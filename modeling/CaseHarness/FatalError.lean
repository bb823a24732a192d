import CaseHarness.Files.Tree
import CaseHarness.Language
import CaseHarness.Process.Capture

/-!
# Fatal errors

An error that ends the harness without a verdict.  Each one has a message, and
some name the fault of the system that caused them.
-/

namespace CaseHarness

/-- Why a program could not be run. -/
inductive SpawnFault where
  /-- The program could not be started. -/
  | notStarted (fault : FileError)
  /-- Its output could not be captured. -/
  | notCaptured (fault : CaptureFault)
  deriving DecidableEq, Repr

def CaptureFault.text : CaptureFault → String
  | reader (.broken text) => text
  | reader .crashed => "task panicked"
  | child text => text

def SpawnFault.text : SpawnFault → String
  | notStarted fault => fault.text
  | notCaptured fault => fault.text

/-- Why the harness gives up. -/
inductive FatalError where
  | caseNotFound (path : String)
  | caseUnreadable (path : String) (cause : FileError)
  | caseDirectoryUnresolved (path : String)
  | invalidExitCode (line : Nat) (value : String)
  | configUnreadable (path : String) (cause : FileError)
  | configMalformed (path : String)
  | programNotFound (path : String)
  /-- There is no program to run. -/
  | emptyCommand
  | spawnFailed (program : String) (cause : SpawnFault)
  | reportUnwritable (path : String) (cause : FileError)
  deriving DecidableEq, Repr

namespace FatalError

def message : FatalError → Message
  | caseNotFound path => .caseNotFound path
  | caseUnreadable path _ => .caseUnreadable path
  | caseDirectoryUnresolved path => .caseDirectoryUnresolved path
  | invalidExitCode line value => .invalidExitCode line value
  | configUnreadable path _ => .configUnreadable path
  | configMalformed path => .configMalformed path
  | programNotFound path => .programNotFound path
  | emptyCommand => .usage
  | spawnFailed program _ => .spawnFailed program
  | reportUnwritable path _ => .reportUnwritable path

/-- What the cause of an error says, if the error names one. -/
def cause? : FatalError → Option String
  | caseUnreadable _ cause | configUnreadable _ cause | reportUnwritable _ cause =>
      some cause.text
  | spawnFailed _ cause => some cause.text
  | caseNotFound _ | caseDirectoryUnresolved _ | invalidExitCode .. | configMalformed _
  | programNotFound _ | emptyCommand => none

/-- What the harness writes on its error output while a language tag is in force: one
line with the message and the cause.  The text about a malformed settings file stays open
at its end. -/
def report (fatal : FatalError) (tag : String) : String :=
  let opening := "Error: " ++ fatal.message.text tag
  match fatal with
  | configMalformed _ => opening
  | _ =>
      match fatal.cause? with
      | some cause => opening ++ ": " ++ cause ++ "\n"
      | none => opening ++ "\n"

end FatalError

end CaseHarness
