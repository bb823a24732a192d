import CaseHarness.Process.Launch
import CaseHarness.Shell.Interpreter

/-!
# Launching scripts and utilities

`Shell.launcher` starts the programs of a tree: utilities, the shell, and files
that name their interpreter.  The program is followed to its end on a clock of
its own, and its timeline gives the events of the capture.
-/

namespace CaseHarness.Shell

/-- How many steps a program may take. -/
def maxSteps : Nat :=
  1000000

/-- What a program finds when it begins, apart from its arguments and directory. -/
structure Surroundings where
  /-- The bytes of the standard input. -/
  input : List UInt8 := []
  /-- The environment variables with their values. -/
  bindings : List (String × String) := []
  /-- The reading of the clock of the system in nanoseconds. -/
  clock : Nat := 0
  deriving Repr

/-- The variables that programs find besides those of their surroundings. -/
def usualBindings : List (String × String) :=
  [("HOME", "/root"), ("PATH", Image.usualPath)]

/-- The process that runs a program, before it begins. -/
def initialState (surroundings : Surroundings) (tree : Tree) (directory : Location)
    (limit : Option Nat) : State :=
  let bindings := surroundings.bindings ++ usualBindings
  { world := { tree := tree, sources := [(0, ⟨[(0, surroundings.input)], 0⟩)] }
    process := 1
    mainProcess := 1
    name := "sh"
    killAt := limit
    directory := directory
    descriptors := [(0, .source 0), (1, .target (.stream .output)), (2, .target (.stream .errors))]
    bindings := bindings
    exported := bindings.map Prod.fst }

/-- The ending of a process that has not been killed for lack of time. -/
def End.ending? : End → Option Ending
  | .exited code => some (.exited code)
  | .signaled signal => some (.signaled signal)
  | .killed => none

/-- What a program does, seen from outside, once it has run to its end. -/
def State.timeline (final : State) : Timeline :=
  let world := final.remains
  let writesOf := fun stream : Stream =>
    (world.writesTo (.stream stream)).map fun (moment, bytes) => (moment, stream, bytes)
  { writes :=
      (writesOf .output ++ writesOf .errors).mergeSort fun first second => first.1 ≤ second.1
    outputEnd := world.endOf (.stream .output)
    errorsEnd := world.endOf (.stream .errors)
    ending := final.ending.ending?.map fun ending => (final.clock, ending) }

/-- Start programs in the given surroundings. -/
def launcher (surroundings : Surroundings) : Launcher := fun tree request =>
  let words := request.program :: request.arguments
  if words.any fun word => word.toList.contains '\x00' then .error .nulInArguments
  else if hasLongArgument words then .error .argumentsTooLong
  else
    match tree.locate [] request.directory with
    | .error fault => .error fault
    | .ok directory =>
        match Image.find tree directory Image.usualPath request.program with
        | .error fault => .error fault
        | .ok image =>
            let limit := request.limit.map Duration.total
            let start := (initialState surroundings tree directory limit).spend State.startTime
            let named := { start with name := image.title.getD request.program }
            let final := (runImage maxSteps named image request.arguments).conclude
            let timeline := final.timeline
            .ok
              { events := timeline.events limit
                elapsed := timeline.elapsed limit
                files := final.world.tree
                clockLeft := clockRange - surroundings.clock }

end CaseHarness.Shell
