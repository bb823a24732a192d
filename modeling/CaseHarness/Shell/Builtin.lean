import CaseHarness.Shell.Builtin.Description
import CaseHarness.Shell.Builtin.Directory
import CaseHarness.Shell.Builtin.Processes
import CaseHarness.Shell.Builtin.Settings
import CaseHarness.Shell.Builtin.Variables
import CaseHarness.Shell.Utility.Condition
import CaseHarness.Shell.Utility.Format

/-!
# Commands of the shell

`Builtin.find?` finds the commands of the shell that run no others.  Some of them
decide how the script goes on; an error in a special one ends the shell.
-/

namespace CaseHarness.Shell.Builtin

/-- End the process with the status that is asked for, or the present one. -/
def leave (state : State) (arguments : List String) : State :=
  match arguments with
  | [] => state.finish (.exited (state.heldStatus.getD state.status % 256))
  | word :: _ => withNumber state word fun code => state.finish (.exited (code % 256))

/-- Go back from a function or from another script. -/
def goBack (state : State) (arguments : List String) : State :=
  match arguments with
  | [] => { state with flow := .returning }
  | word :: _ => withNumber state word fun status =>
      { state with status := status, flow := .returning }

/-- Leave loops, or go on with the next turn of one; of more levels than there are the last
one counts. -/
def leaveLoops (flow : Nat → Flow) (state : State) (arguments : List String) : State :=
  withNumber state (arguments.headD "1") fun levels =>
    if levels = 0 then state.fail ("Illegal number: " ++ arguments.headD "")
    else if state.loops = 0 then state.withStatus 0
    else { state with status := 0, flow := flow (min levels state.loops) }

/-- Ask for a process in the background to be continued, of which there is none. -/
def resumeJob (state : State) (arguments : List String) : State :=
  match arguments with
  | [] => state.fail "No current job"
  | word :: _ => state.fail ("No such job: " ++ word)

/-- The times that the shell and the programs have used, too small to be seen. -/
def usedTimes : String :=
  "0m0.000000s 0m0.000000s\n0m0.000000s 0m0.000000s\n"

/-- The command of the shell with a name, unless it runs other commands. -/
def find? (name : String) : Option (State → List String → State) :=
  match name with
  | ":" | "true" => some fun state _ => state.withStatus 0
  | "false" => some fun state _ => state.withStatus 1
  | "alias" => some abbreviate
  | "bg" | "fg" => some resumeJob
  | "break" => some (leaveLoops .breaking)
  | "cd" | "chdir" => some changeDirectory
  | "continue" => some (leaveLoops .continuing)
  | "echo" => some (Utility.echo .shell)
  | "exit" => some leave
  | "export" => some exportAll
  | "getopts" => some getopts
  | "hash" => some hash
  | "jobs" => some fun state _ => state.withStatus 0
  | "kill" => some kill
  | "local" => some takeLocals
  | "printf" => some (Utility.printf .shell)
  | "pwd" => some showDirectory
  | "read" => some read
  | "readonly" => some fixAll
  | "return" => some goBack
  | "set" => some set
  | "shift" => some shift
  | "test" => some fun state arguments => Utility.test .shell state false arguments
  | "[" => some fun state arguments => Utility.test .shell state true arguments
  | "times" => some fun state _ => emitText state usedTimes
  | "trap" => some trap
  | "type" => some fun state arguments =>
      describe state true ((state.valueOf? "PATH").getD "") arguments
  | "ulimit" => some ulimit
  | "umask" => some umask
  | "unalias" => some dropAbbreviations
  | "unset" => some unset
  | "wait" => some wait
  | _ => none

end CaseHarness.Shell.Builtin
