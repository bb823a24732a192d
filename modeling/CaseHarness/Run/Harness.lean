import CaseHarness.Run.Execute
import CaseHarness.Settings.File

/-!
# The whole harness

The harness reads its command line, loads the settings, chooses its language
and carries out the run.  The language tag in force is set twice: as soon as the
command line names a language, and for good when the settings are known.
-/

namespace CaseHarness

def Settings.load (files : Tree) (directory : Location) (path : String) :
    Except FatalError Settings :=
  match files.read directory path with
  | .error cause => .error (.configUnreadable path cause)
  | .ok content =>
      match Text.Utf8.decode? content with
      | none => .error (.configUnreadable path .notText)
      | some text =>
          match Settings.File.read text with
          | none => .error (.configMalformed path)
          | some settings => .ok settings

def Settings.loadOptional (files : Tree) (directory : Location) :
    Option String → Except FatalError Settings
  | none => .ok {}
  | some path => Settings.load files directory path

namespace Harness

open CommandLine (Arguments Options)

/-- How the harness ends. -/
inductive Status where
  | exited (code : Nat)
  /-- It breaks off without an exit status of its own. -/
  | aborted
  /-- It never ends. -/
  | endless
  deriving DecidableEq, Repr

def settingsOf (options : Options) : Settings :=
  ⟨options.language, options.timeout, options.report⟩

/-- The tag of the language for settings: the one asked for, else the one that suits the
environment. -/
def chooseTag (environment : Environment) (settings : Settings) : String :=
  match settings.language with
  | some requested => Language.resolve requested
  | none => environment.detect

/-- The plan of a run: the last word of the invocation is the test case. -/
def planOf (arguments : Arguments) (settings : Settings) (tag : String) : Plan where
  command := arguments.invocation.dropLast
  testCase := arguments.invocation.getLast?.getD ""
  limit := settings.timeoutSeconds.map fun seconds => ⟨seconds, 0⟩
  report := settings.report
  verbose := arguments.options.verbose
  tag := tag

/-- The session once the command line has named a language. -/
def adoptRequested (options : Options) (session : Session) : Session :=
  match options.language with
  | some requested => { session with tag := Language.resolve requested }
  | none => session

def giveUp (fatal : FatalError) (session : Session) : Session × Status :=
  (session.perform (.gaveUp fatal session.tag), .exited 1)

/-- How the harness ends once its plan has been carried out. -/
def ended : Session × Result Outcome → Session × Status
  | (final, .done outcome) => (final, .exited outcome.exitStatus)
  | (final, .failed fatal) => giveUp fatal final
  | (final, .aborted) => (final, .aborted)
  | (final, .endless) => (final, .endless)

/-- A run that has not failed is the last that the harness does. -/
theorem ended_cases (ran : Session × Result Outcome) :
    (ended ran).1 = ran.1 ∨
      ∃ fatal, ran.2 = .failed fatal ∧ (ended ran).1 = (giveUp fatal ran.1).1 := by
  obtain ⟨final, result⟩ := ran
  cases result with
  | failed fatal => exact Or.inr ⟨fatal, rfl, rfl⟩
  | done | aborted | endless => exact Or.inl rfl

/-- Carry out the run that arguments ask for; without an invocation only the usage is told. -/
def runArguments (launch : Launcher) (environment : Environment) (arguments : Arguments)
    (session : Session) : Session × Status :=
  let ready := adoptRequested arguments.options session
  match Settings.loadOptional ready.files ready.directory arguments.options.config with
  | .error fatal => giveUp fatal ready
  | .ok fileSettings =>
      let settings := fileSettings.override (settingsOf arguments.options)
      let tag := chooseTag environment settings
      let tagged := { ready with tag := tag }
      if arguments.invocation = [] then
        (tagged.perform (.answered (CommandLine.usageLine tag)), .exited 1)
      else ended ((planOf arguments settings tag).execute launch tagged)

/-- Run the harness on a command line, whose first word is its own name.  The result is
the session at the end and how the harness ends. -/
def run (launch : Launcher) (environment : Environment) (words : List String)
    (session : Session) : Session × Status :=
  match CommandLine.answer environment words with
  | .exit status text => (session.perform (.answered text), .exited status)
  | .run arguments => runArguments launch environment arguments session

end Harness

end CaseHarness
