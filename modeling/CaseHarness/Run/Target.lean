import CaseHarness.Run.Session

/-!
# Running the program under test

The program runs in the directory of the test case and receives the words of
the command and then the base name of the case.  A program that is named with a
directory is made absolute first, so that it is found from there.  Once the
program has been started, the end of its time is computed; the harness does not
survive a limit that leads beyond the end of the clock.
-/

namespace CaseHarness

/-- The program to start: a bare name stays as it is, and everything else becomes an
absolute path, which must exist. -/
def resolveProgram (files : Tree) (directory : Location) (program : String) :
    Except FatalError String :=
  if Path.isBare program then .ok program
  else
    let absolute := Path.absolute directory.path program
    if files.names directory absolute then .ok absolute else .error (.programNotFound program)

/-- What becomes of an undertaking of the harness. -/
inductive Result (Value : Type) where
  | done (value : Value)
  | failed (fatal : FatalError)
  /-- The harness breaks off in the middle and says nothing about it itself. -/
  | aborted
  /-- The harness waits for ever: the program never ends or its output never does, and no
  limit is set. -/
  | endless
  deriving DecidableEq, Repr

/-- The termination that a capture observed: none means that the program was killed. -/
def observedTermination (limit : Option Duration) (elapsed : Duration) :
    Option Ending → Termination
  | some ending => ending.termination
  | none => .timedOut (limit.getD elapsed).milliseconds

/-- What becomes of a program that has been started.  The events of its capture count only if
the clock can show the end of its time. -/
def Execution.ofCapture (program : String) (limit : Option Duration) (launched : Launched) :
    Result Execution :=
  if launched.overruns limit then .aborted
  else
    let elapsed := Duration.ofNanoseconds launched.elapsed
    match (Capture.run limit.isSome launched.events).result? with
    | none => .endless
    | some (.error fault) => .failed (.spawnFailed program (.notCaptured fault))
    | some (.ok (ending, bytes)) =>
        .done
          { output := Text.Utf8.decode bytes
            termination := observedTermination limit elapsed ending
            duration := elapsed }

def runTarget (launch : Launcher) (case : TestCase) (command : List String)
    (limit : Option Duration) (session : Session) : Session × Result Execution :=
  match command with
  | [] => (session, .failed .emptyCommand)
  | program :: arguments =>
      match resolveProgram session.files session.directory program with
      | .error fatal => (session, .failed fatal)
      | .ok resolved =>
          let request : Request := ⟨resolved, case.arguments arguments, case.directory, limit⟩
          match launch session.files request with
          | .error fault => (session, .failed (.spawnFailed program (.notStarted fault)))
          | .ok launched =>
              let started := session.perform (.started request)
              ({ started with files := launched.files },
                Execution.ofCapture program limit launched)

end CaseHarness
