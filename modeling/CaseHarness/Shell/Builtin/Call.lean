import CaseHarness.Shell.Utility.Number
import CaseHarness.Shell.Utility.Output
import CaseHarness.Shell.Variables

/-!
# Arguments of commands of the shell

A command of the shell reads options up to its first operand, and numbers
without a sign.  What is wrong with them ends the command, and with it the shell
if the command is a special one.
-/

namespace CaseHarness.Shell.Builtin

/-- Run a command with its options, or fail if they are wrong. -/
def withOptions (letters : List (Char × Bool)) (state : State) (arguments : List String)
    (body : Options → State) : State :=
  match Options.ofCommand letters arguments with
  | .error fault => state.fail fault.shellText
  | .ok options => body options

/-- Run a command with a number, or fail if the word is none. -/
def withNumber (state : State) (word : String) (body : Nat → State) : State :=
  match Number.count? word with
  | some number => body number
  | none => state.fail ("Illegal number: " ++ word)

/-- Run a command for each of some words, as long as none fails. -/
def forEach (state : State) (words : List String) (body : State → String → State) : State :=
  words.foldl (fun current word => if current.isRunning then body current word else current) state

/-- Write a text and leave the status zero. -/
def emitText (state : State) (text : String) : State :=
  Origin.shell.emit state (Text.Utf8.encode text) 0

end CaseHarness.Shell.Builtin
