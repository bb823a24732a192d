import CaseHarness.Shell.Builtin.Call

/-!
# Commands for processes

Signals are sent and processes are waited for; a trap says what is done on a
signal.
-/

namespace CaseHarness.Shell.Builtin

/-- How signals are sent. -/
def killUsage : String :=
  "Usage: kill [-s sigspec | -signum | -sigspec] [pid | job]... or\nkill -l [exitstatus]"

def showSignals (state : State) (words : List String) : State :=
  match words with
  | [] =>
      let names := (List.range' 1 (Signal.count - 1)).map fun signal => Signal.name signal ++ "\n"
      emitText state ("0\n" ++ String.join names)
  | word :: _ =>
      withNumber state word fun status =>
        let signal := if 128 < status then status - 128 else status
        if 0 < signal ∧ signal < Signal.count then emitText state (Signal.name signal ++ "\n")
        else state.fail ("invalid signal number or exit status: " ++ word)

/-- Send a signal to processes; what is given with a hyphen in front stands for a group. -/
def sendAll (state : State) (signal : Nat) (words : List String) : State :=
  forEach (state.withStatus 0) words fun current word =>
    match word.toList with
    | '%' :: _ => current.fail ("No such job: " ++ word)
    | '-' :: digits =>
        withNumber current (String.ofList digits) fun _ =>
          (current.complain "No such process\n").withStatus 1
    | _ =>
        withNumber current word fun process =>
          let receiver := if process = 0 then current.process else process
          match current.send signal receiver with
          | (next, true) => next
          | (next, false) => (next.complain "No such process\n").withStatus 1

/-- Send a signal to processes, or show signals. -/
def kill (state : State) (arguments : List String) : State :=
  let send := fun (signal : Option Nat) (isList : Bool) (words : List String) =>
    match isList, signal, words with
    | true, none, _ => showSignals state words
    | true, some _, _ | false, _, [] => state.fail killUsage
    | false, _, _ => sendAll state (signal.getD 15) words
  match arguments with
  | [] => state.fail killUsage
  | first :: rest =>
      match first.toList with
      | '-' :: word =>
          match Signal.ofWord? 1 (String.ofList word) with
          | some signal => send (some signal) false rest
          | none =>
              withOptions [('l', false), ('s', true)] state arguments fun options =>
                match options.argument? 's' with
                | none => send none (options.has 'l') options.operands
                | some name =>
                    match Signal.ofWord? 1 name with
                    | some signal => send (some signal) (options.has 'l') options.operands
                    | none => state.fail ("invalid signal number or name: " ++ name)
      | _ => send none false arguments

/-- The lines that show what is done on signals. -/
def shownTraps (state : State) : String :=
  String.join ((List.range Signal.count).map fun signal =>
    match state.traps.lookup signal with
    | some action => "trap -- " ++ quotedValue action ++ " " ++ Signal.name signal ++ "\n"
    | none => "")

/-- Say what is done on signals, from now on. -/
def setTraps (state : State) (action : Option String) (words : List String) : State :=
  words.foldl
    (fun (current : State) word =>
      if current.status ≠ 0 then current
      else
        match Signal.ofWord? 0 word with
        | none => (current.say 2 ("trap: " ++ word ++ ": bad trap\n")).withStatus 1
        | some signal =>
            let others := current.traps.filter fun entry => entry.1 ≠ signal
            { current with
              traps :=
                match action with
                | some text => (signal, text) :: others
                | none => others })
    (state.withStatus 0)

/-- Say what is done on signals, or show it. -/
def trap (state : State) (arguments : List String) : State :=
  withOptions [] state arguments fun options =>
    match options.operands with
    | [] => emitText state (shownTraps state)
    | [word] => setTraps state none [word]
    | first :: rest =>
        if (Signal.ofDigits? first).isSome then setTraps state none (first :: rest)
        else setTraps state (if first = "-" then none else some first) rest

/-- Note that the shell has seen the ends of processes up to now. -/
def noteEnds (state : State) : State :=
  { state with
    jobs := state.jobs.map fun job =>
      if job.finish ≤ state.clock then { job with seen := true } else job }

/-- The status of a wait that an action on a signal has ended. -/
def interruption? (state : State) : Option Nat :=
  state.caught.getLast?.map fun signal => 128 + signal

/-- Wait for one process in the background. -/
def waitForJob (state : State) (job : Job) : State :=
  let waited := state.waitLightly job.finish
  if waited.hasEnded then waited
  else
    match interruption? waited with
    | some status => waited.withStatus status
    | none =>
        let current := waited.jobs.find? fun other => other.process = job.process
        let ended := current.getD job
        let told :=
          match ended.ending with
          | .signaled signal =>
              match if ended.seen then none else Signal.text? signal with
              | some text => waited.say 2 (text ++ "\n")
              | none => waited
          | .exited _ | .killed => waited
        (noteEnds told).withStatus ended.ending.status

/-- Wait for all processes in the background. -/
def waitForAll (state : State) : State :=
  let waited := (state.jobs.mergeSort fun first second => first.finish ≤ second.finish).foldl
    (fun (current : State) job =>
      if current.hasEnded || current.caught ≠ [] then current else current.waitLightly job.finish)
    state
  if waited.hasEnded then waited
  else (noteEnds waited).withStatus ((interruption? waited).getD 0)

/-- Wait for processes in the background. -/
def wait (state : State) (arguments : List String) : State :=
  withOptions [] state arguments fun options =>
    if options.operands = [] then waitForAll state
    else
      forEach (state.withStatus 127) options.operands fun current word =>
        if current.caught ≠ [] then current
        else if word.toList.head? = some '%' then current.fail ("No such job: " ++ word)
        else
          withNumber current word fun process =>
            match current.jobs.find? fun job => job.process = process with
            | some job => waitForJob current job
            | none => current

end CaseHarness.Shell.Builtin
