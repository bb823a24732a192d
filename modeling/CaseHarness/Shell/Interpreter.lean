import CaseHarness.Shell.Arithmetic
import CaseHarness.Shell.Builtin
import CaseHarness.Shell.Grammar
import CaseHarness.Shell.Redirect
import CaseHarness.Shell.Utility
import CaseHarness.Shell.Utility.Wrapper

/-!
# Running shell scripts

The interpreter takes the state of a process through the commands of a script.
A script is read line by line, so that what stands before a fault is run.  Every
function is given fuel, which every step uses up.
-/

namespace CaseHarness.Shell

/-- The circumstances of a command. -/
structure Context where
  /-- Whether the process ends with the command, so that a program may take its place. -/
  last : Bool
  /-- Whether a failure of the command is looked at and ends nothing. -/
  tested : Bool
  deriving DecidableEq, Repr

/-- Where a script comes from. -/
inductive ScriptSource where
  /-- A text, whose lines are not shown as they are read. -/
  | text
  /-- A file or the standard input. -/
  | file
  deriving DecidableEq, Repr

/-- A command with its arguments. -/
structure Call where
  name : String
  arguments : List String
  /-- Whether functions are passed over and errors do not end the shell. -/
  plain : Bool := false
  /-- Whether programs are looked up along the usual path only. -/
  usual : Bool := false
  deriving DecidableEq, Repr

namespace Call

/-- Take the words that only say how a command is run from its front. -/
def resolve (call : Call) : Nat → Call
  | 0 => call
  | fuel + 1 =>
      if call.name ≠ "command" then call
      else
        match call.arguments with
        | [] => call
        | word :: rest =>
            match word.toList, rest with
            | ['-', '-'], name :: others => resolve ⟨name, others, true, call.usual⟩ fuel
            | ['-', '-'], [] => call
            | '-' :: letter :: letters, _ =>
                if (letter :: letters).all fun other => other = 'p' then
                  if rest = [] then call
                  else
                    let inner := resolve ⟨"command", rest, true, true⟩ fuel
                    inner
                else call
            | _, _ => resolve ⟨word, rest, true, call.usual⟩ fuel

/-- The command that the fields of a simple command ask for. -/
def ofFields (state : State) (name : String) (arguments : List String) : Call :=
  if (state.functions.lookup name).isSome then ⟨name, arguments, false, false⟩
  else resolve ⟨name, arguments, false, false⟩ (arguments.length + 1)

def isFunction (call : Call) (state : State) : Bool :=
  !call.plain && (state.functions.lookup call.name).isSome

/-- Whether an error in the command ends the shell. -/
def isSpecial (call : Call) (state : State) : Bool :=
  !call.plain && !call.isFunction state && Builtin.isSpecial call.name

/-- Whether the command is one of the shell itself. -/
def isBuiltin (call : Call) (state : State) : Bool :=
  !call.isFunction state && Builtin.isKnown call.name

end Call

namespace State

/-- Whether the shell must stay because there is something to be done on signals or at its end. -/
def hasTraps (state : State) : Bool :=
  state.traps.any fun entry => entry.2 ≠ ""

/-- Put descriptors back, unless a program has taken the place of the shell. -/
def restore (state : State) (before : State) : State :=
  if state.replaced then state else { state with descriptors := before.descriptors }

/-- End a process that has run through. -/
def conclude (state : State) : State :=
  match state.flow with
  | .ended _ => state
  | _ => state.finish (.exited (state.status % 256))

/-- Wait for a process in the foreground, and tell which signal has ended it. -/
def awaitEnd (state : State) (moment : Nat) (ending : End) : State :=
  let after := state.waitUntil moment
  if after.hasEnded then after
  else
    match ending with
    | .signaled signal =>
        match Signal.text? signal with
        | some text => after.say 2 (text ++ "\n")
        | none => after
    | .exited _ | .killed => after

/-- Go on after processes in the foreground. -/
def goOn (state : State) (status : Nat) : State :=
  if state.hasEnded then state else ((Builtin.noteEnds state).receive 17).withStatus status

/-- Go on after a process in the foreground has ended, at a given moment at the earliest. -/
def resume (state child : State) (moment : Nat) : State :=
  ((state.adopt child.remains).awaitEnd (max child.clock moment) child.ending).goOn
    child.ending.status

/-- Go on after the stages of a pipeline have ended. -/
def awaitStages (state : State) (ends : List (Nat × End)) (status : Nat) : State :=
  let ordered := ends.mergeSort fun first second => first.1 ≤ second.1
  (ordered.foldl (fun (current : State) (moment, ending) => current.awaitEnd moment ending)
    state).goOn status

/-- Leave a loop or go on with it, as its body asks. -/
def afterBody (state : State) : State × Bool :=
  match state.flow with
  | .breaking (levels + 2) => ({ state with flow := .breaking (levels + 1) }, false)
  | .breaking _ => ({ state with flow := .running }, false)
  | .continuing (levels + 2) => ({ state with flow := .continuing (levels + 1) }, false)
  | .continuing _ => ({ state with flow := .running }, true)
  | .running => (state, true)
  | .returning | .failed | .ended _ => (state, false)

/-- Enter a body that loops run. -/
def enterLoop (state : State) : State :=
  { state with loops := state.loops + 1 }

/-- Leave a body that loops run. -/
def leaveLoop (state : State) : State :=
  { state with loops := state.loops - 1 }

/-- A process in the background goes on by itself. -/
def detach (state child ended : State) : State :=
  let job : Job :=
    ⟨child.process, ended.clock, ended.ending,
      child.ignored ++ (ended.traps.filter fun entry => entry.2 = "").map Prod.fst, false⟩
  let after := state.adopt ended.remains
  { after with
    jobs := job :: after.jobs
    lastJob := some child.process
    arriving := (after.arriving ++ [(ended.clock, 17)]).mergeSort fun first second =>
      first.1 ≤ second.1
    status := 0 }

/-- A process of the shell in the background: it reads nothing and does not notice what a terminal
would send. -/
def background (state : State) : State :=
  let child := state.child.setChannel 0 (.device .null)
  { child with ignored := 2 :: 3 :: child.ignored }

/-- What a subshell keeps of its shell: of what is done on signals only what lets them pass. -/
def asSubshell (state : State) : State :=
  { state with
    traps := state.traps.filter fun entry => entry.2 = "" && entry.1 ≠ 0
    caught := []
    jobs := [] }

/-- What a program keeps of the shell whose place it takes. -/
def asProgram (state : State) : State :=
  { state.asSubshell with replaced := true }

/-- The line that shows a command before it runs. -/
def traceText (start : String) (assignments : List (String × String)) (fields : List String) :
    String :=
  let shown := assignments.map fun (name, value) => name ++ "=" ++ value
  start ++ String.intercalate " " (shown ++ fields) ++ "\n"

/-- A shell that has just been started: it knows the variables that were exported and nothing
else. -/
def asNewShell (state : State) : State :=
  let exported := state.exported.filter fun name =>
    Grammar.isName name.toList && (state.valueOf? name).isSome
  let physical := Location.path state.directory
  let known := (state.valueOf? "PWD").filter fun path =>
    state.exported.contains "PWD" && Path.isAbsolute path &&
      (match state.world.tree.locate [] path with
      | .ok location => decide (location = state.directory)
      | .error _ => false)
  let place := known.getD physical
  let own : List (String × String) :=
    [("IFS", " \t\n"), ("OPTIND", "1"), ("PPID", Text.Numeral.decimal state.parent),
      ("PS1", "# "), ("PS2", "> "), ("PS4", "+ "), ("PWD", place)]
  let inherited := state.bindings.filter fun entry =>
    exported.contains entry.1 && (own.lookup entry.1).isNone
  let path := if (inherited.lookup "PATH").isSome then [] else [("PATH", Image.usualPath)]
  { state with
    mainProcess := state.process
    line := 0
    caller := none
    knownPath := place
    bindings := own ++ path ++ inherited
    exported := if exported.contains "PWD" then exported else exported ++ ["PWD"]
    fixed := []
    scopes := []
    arguments := []
    functions := []
    aliases := []
    tracked := []
    status := 0
    outcome := 0
    heldStatus := none
    optionPlace := (1, none)
    jobs := []
    lastJob := none
    options := []
    loops := 0
    traps := []
    ignored := state.ignored ++
      (state.traps.filter fun entry => entry.2 = "" && entry.1 ≠ 0).map Prod.fst
    caught := []
    replaced := false }

end State

/-- The assignments in front of a command, or the words behind it that are taken as such. -/
def keepsAssignments (state : State) (fields : List String) (word : Word) : Bool :=
  match fields with
  | [] => false
  | name :: arguments =>
      let call := Call.ofFields state name arguments
      (Grammar.assignment? word).isSome && call.isBuiltin state &&
        Builtin.takesAssignments call.name

/-- The most bytes that one argument of a program may have. -/
def maxArgumentLength : Nat :=
  131071

/-- Whether an argument is too long to be given to a program. -/
def hasLongArgument (arguments : List String) : Bool :=
  arguments.any fun word => maxArgumentLength < (Text.Utf8.encode word).length

/-- How a program is started. -/
inductive Start where
  /-- As a process of its own. -/
  | child
  /-- In place of the shell, which ends with it. -/
  | final
  /-- In place of the shell, because the script asks for it. -/
  | exec
  deriving DecidableEq, Repr

/-- What is said when a program cannot be run, and the status. -/
def startFault (isLookedUp : Bool) (fault : FileError) : String × Nat :=
  match fault with
  | .notFound | .notDirectory => ("not found", 127)
  | .tooManyLinks | .nameTooLong => (fault.reason, 127)
  | other => (other.reason, if isLookedUp && other = .permissionDenied then 127 else 126)

/-- The options in front of the arguments of a shell: the options, whether a script is given as
an argument, and what is left. -/
def shellOptions : Nat → State → List String → State × Bool × List String
  | 0, state, words => (state, false, words)
  | _ + 1, state, [] => (state, false, [])
  | fuel + 1, state, word :: rest =>
      let cluster := fun (turnOn : Bool) (letters : List Char) =>
        let hasText := letters.contains 'c'
        let plain := letters.filter fun letter => letter ∉ ['c', 'l', 'o']
        let set := Builtin.setLetters state turnOn plain
        if !set.isRunning then (set, hasText, rest)
        else if letters.contains 'o' then
          match rest with
          | name :: others =>
              let named := Builtin.setNamed set turnOn name
              if named.isRunning then
                let (next, later, left) := shellOptions fuel named others
                (next, hasText || later, left)
              else (named, hasText, others)
          | [] => (Builtin.emitText set (Builtin.shownOptions set !turnOn), hasText, [])
        else
          let (next, later, left) := shellOptions fuel set rest
          (next, hasText || later, left)
      match word.toList with
      | ['-'] | ['-', '-'] => (state, false, rest)
      | '-' :: letters => cluster true letters
      | '+' :: letters => cluster false letters
      | _ => (state, false, word :: rest)

mutual

def expandPart : Nat → State → Part → State × List Piece
  | 0, state, _ => (state, [])
  | fuel + 1, state, part =>
      let missing := fun name : String =>
        (parameter? state name).isNone && state.hasOption 'u' && name ≠ "@" && name ≠ "*"
      let refused := fun name : String =>
        (state.fail (name ++ ": parameter not set"), ([] : List Piece))
      let shown := fun (isQuoted : Bool) (text : String) =>
        Piece.marked (Piece.mark isQuoted text.toList) (!isQuoted)
      match part with
      | .text characters isQuoted => (state, [.marked (Piece.mark isQuoted characters) false])
      | .parameter name isQuoted =>
          if name = "@" || (name = "*" && !isQuoted) then
            (state, [.whole state.arguments (!isQuoted)])
          else if missing name then refused name
          else (state, [shown isQuoted ((parameter? state name).getD "")])
      | .length name isQuoted =>
          if missing name then refused name
          else
            let length := (Text.Utf8.encode ((parameter? state name).getD "")).length
            (state, [shown isQuoted (Text.Numeral.decimal length)])
      | .changed name change orEmpty word isQuoted =>
          let value := (parameter? state name).filter fun text => !(orEmpty && text.isEmpty)
          let itself := fun text : String =>
            if name = "@" || (name = "*" && !isQuoted) then
              Piece.whole state.arguments (!isQuoted)
            else shown isQuoted text
          let inner := fun current : State =>
            let (next, pieces) :=
              expandParts fuel current (if isQuoted then word else expandHome current false word)
            (next, if isQuoted then pieces else pieces.map Piece.loosened)
          match change, value with
          | .substitute, some text | .assign, some text | .demand, some text =>
              (state, [itself text])
          | .substitute, none | .replace, some _ => inner state
          | .replace, none => (state, [])
          | .assign, none =>
              let (next, pieces) := inner state
              if !next.isRunning then (next, [])
              else
                let text := unmarked (Piece.joined next.joint pieces)
                (next.bind name text, [shown isQuoted text])
          | .demand, none =>
              let (next, pieces) := inner state
              if !next.isRunning then (next, [])
              else
                let absence := "parameter not set" ++ if orEmpty then " or null" else ""
                let reason :=
                  if word = [] then absence else unmarked (Piece.joined next.joint pieces)
                (next.fail (name ++ ": " ++ reason), [])
          | .dropFront longest, _ => trimPart fuel state name word isQuoted (dropFront longest)
          | .dropBack longest, _ => trimPart fuel state name word isQuoted (dropBack longest)
      | .malformed => (state.fail "Bad substitution", [])
      | .output script isQuoted =>
          if script = [] then (state, [])
          else
            let (identity, begun) := state.freshIdentity
            let child := begun.child.setChannel 1 (.target (.pipe identity))
            let ended := concludeShell fuel (runScript fuel ⟨true, false⟩ child script)
            let world := ended.remains
            let bytes := (world.writesTo (.pipe identity)).flatMap Prod.snd
            let text := (Text.Utf8.decode (bytes.filter fun byte => byte ≠ 0)).toList
            let trimmed := (text.reverse.dropWhile fun character => character = '\n').reverse
            let after := begun.resume ended (world.endOf (.pipe identity))
            ({ after with outcome := ended.ending.status, status := state.status },
              [shown isQuoted (String.ofList trimmed)])
      | .arithmetic expression isQuoted =>
          let (next, pieces) := expandParts fuel state expression
          if !next.isRunning then (next, [])
          else
            let text := (Piece.joined next.joint pieces).map Prod.fst
            match Arithmetic.evaluate next.bindings text with
            | .error fault => (next.fail (fault.text (String.ofList text)), [])
            | .ok (value, assigned) =>
                (assigned.foldl (fun (current : State) (name, number) =>
                    if current.isRunning then current.bind name number else current) next,
                  [shown isQuoted (Text.Numeral.signedDecimal value)])

/-- Expand a parameter that loses what a pattern describes. -/
def trimPart : Nat → State → String → Word → Bool → (List Marked → List Char → List Char) →
    State × List Piece
  | 0, state, _, _, _, _ => (state, [])
  | fuel + 1, state, name, word, isQuoted, trim =>
      if (parameter? state name).isNone && state.hasOption 'u' && name ≠ "@" && name ≠ "*" then
        (state.fail (name ++ ": parameter not set"), [])
      else
        let (next, pieces) := expandParts fuel state word
        let pattern := Piece.joined next.joint pieces
        if name = "@" || (name = "*" && !isQuoted) then
          let values := Path.joinWith '\x00' (state.arguments.map String.toList)
          let left := if state.arguments = [] then [] else Path.split '\x00' (trim pattern values)
          (next, [.whole (left.map String.ofList) (!isQuoted)])
        else
          let text := trim pattern ((parameter? state name).getD "").toList
          (next, [.marked (Piece.mark isQuoted text) (!isQuoted)])

def expandParts : Nat → State → Word → State × List Piece
  | 0, state, _ => (state, [])
  | _ + 1, state, [] => (state, [])
  | fuel + 1, state, part :: rest =>
      let (next, pieces) := expandPart fuel state part
      if !next.isRunning then (next, pieces)
      else
        let (after, others) := expandParts fuel next rest
        (after, pieces ++ others)

/-- Expand a word to one text, where the value of an assignment may name several home folders. -/
def expandText : Nat → State → Bool → Word → State × String
  | 0, state, _, _ => (state, "")
  | fuel + 1, state, isAssignment, word =>
      let (next, pieces) := expandParts fuel state (expandHome state isAssignment word)
      (next, unmarked (Piece.joined next.joint pieces))

def expandWords : Nat → State → List Word → State × List String
  | 0, state, _ => (state, [])
  | _ + 1, state, [] => (state, [])
  | fuel + 1, state, word :: rest =>
      let (next, pieces) := expandParts fuel state (expandHome state false word)
      if !next.isRunning then (next, [])
      else
        let fields := (Piece.fieldsOf next.separators pieces).flatMap (matchPaths next)
        let (after, others) := expandWords fuel next rest
        (after, fields ++ others)

/-- Expand the words of a simple command behind the fields that have been expanded already. -/
def expandCommand : Nat → State → List String → List Word → State × List String
  | 0, state, fields, _ => (state, fields)
  | _ + 1, state, fields, [] => (state, fields)
  | fuel + 1, state, fields, word :: rest =>
      let (next, added) :=
        if keepsAssignments state fields word then
          let (after, text) := expandText fuel state true word
          (after, [text])
        else expandWords fuel state [word]
      if !next.isRunning then (next, fields) else expandCommand fuel next (fields ++ added) rest

/-- Carry out assignments; with `inScope` the innermost scope takes the variables, and programs see
them.  The result has the values as well. -/
def assignAll : Nat → State → Bool → List (String × Word) → State × List (String × String)
  | 0, state, _, _ => (state, [])
  | _ + 1, state, _, [] => (state, [])
  | fuel + 1, state, inScope, (name, word) :: rest =>
      let (next, value) := expandText fuel state true word
      if !next.isRunning then (next, [])
      else
        let assigned :=
          if inScope then (next.takeVariable (name ++ "=" ++ value)).expose name
          else next.bind name value
        if !assigned.isRunning then (assigned, [])
        else
          let (after, others) := assignAll fuel assigned inScope rest
          (after, (name, value) :: others)

/-- Expand the targets of redirections, except for texts that they hold themselves. -/
def expandTargets : Nat → State → List Redirection → State × List Redirection
  | 0, state, targets => (state, targets)
  | _ + 1, state, [] => (state, [])
  | fuel + 1, state, .mk descriptor direction target :: rest =>
      if direction = .inline then
        let (after, others) := expandTargets fuel state rest
        (after, .mk descriptor direction target :: others)
      else
        let (next, text) := expandText fuel state false target
        let checked :=
          if next.isRunning && direction = .share && !State.namesDescriptor text then
            next.fail "Syntax error: Bad fd number"
          else next
        if !checked.isRunning then (checked, [])
        else
          let (after, others) := expandTargets fuel checked rest
          (after, .mk descriptor direction [.text text.toList true] :: others)

/-- Carry out redirections whose targets have been expanded. -/
def redirectAll : Nat → State → List Redirection → State
  | 0, state, _ => state
  | _ + 1, state, [] => state
  | fuel + 1, state, .mk descriptor direction target :: rest =>
      let (next, pieces) := expandParts fuel state target
      if !next.isRunning then next
      else
        let opened := next.redirect descriptor direction (unmarked (Piece.joined next.joint pieces))
        if opened.isRunning then redirectAll fuel opened rest else opened

/-- Run the commands of a text one line after the other; `ran` says whether any has run. -/
def runLines : Nat → Context → ScriptSource → Bool → State → Grammar.Cursor → State
  | 0, _, _, _, state, _ => state.finish .killed
  | fuel + 1, context, kind, ran, state, cursor =>
      match Script.next? cursor with
      | .error fault => { state with line := fault.line }.fail fault.text
      | .ok (found, place) =>
          let shown :=
            if kind = .file && state.hasOption 'v' then
              state.say 2
                  (String.ofList (cursor.rest.take (cursor.rest.length - place.rest.length)))
            else state
          match found with
          | none => if ran then shown else shown.withStatus 0
          | some script =>
              let next := runScript fuel context shown script
              if next.isRunning then
                runLines fuel context kind (ran || script.length ≠ 0) next place
              else next

def runText : Nat → Context → State → String → State
  | 0, _, state, _ => state.finish .killed
  | fuel + 1, context, state, text =>
      runLines fuel { context with last := false } .text false state ⟨text.toList, 1, 0⟩

/-- Do what is due on signals. -/
def runTraps : Nat → State → State
  | 0, state => state
  | fuel + 1, state =>
      if !state.isRunning then state
      else
        match state.caught.mergeSort fun first second => first ≤ second with
        | [] => state
        | signal :: others =>
            let left := { state with caught := others }
            match left.actionOn? signal with
            | none | some "" => runTraps fuel left
            | some action =>
                let status := state.heldStatus.getD state.status
                let ran :=
                  runText fuel ⟨false, false⟩ { left with heldStatus := some status } action
                let back := { ran with heldStatus := state.heldStatus }
                if back.flow = .failed || back.flow = .returning || back.hasEnded then back
                else runTraps fuel (back.withStatus status)

/-- End a shell, after what is to be done at its end. -/
def concludeShell : Nat → State → State
  | 0, state => state.conclude
  | fuel + 1, state =>
      let leave := fun code : Nat =>
        match state.traps.lookup 0 with
        | none | some "" => state.finish (.exited code)
        | some action =>
            let begun := { state with
              flow := .running
              status := code
              heldStatus := some code
              loops := 0
              traps := state.traps.filter fun entry => entry.1 ≠ 0 }
            let ran := runText fuel ⟨false, false⟩ begun action
            match ran.flow with
            | .ended _ => ran
            | .failed => ran.finish (.exited ran.status)
            | _ => ran.finish (.exited code)
      match state.flow with
      | .ended (.exited code) => if state.replaced then state else leave code
      | .ended _ => state
      | _ => leave (state.status % 256)

/-- Run a list of commands. -/
def runScript : Nat → Context → State → Script → State
  | 0, _, state, _ => state.finish .killed
  | _ + 1, _, state, [] => state
  | fuel + 1, context, state, (command, isBackground) :: rest =>
      let next :=
        if isBackground then
          let child := state.background
          state.detach child (concludeShell fuel (runCommand fuel ⟨true, false⟩ child command))
        else runCommand fuel { context with last := context.last && rest.isEmpty } state command
      if next.isRunning then runScript fuel context next rest else next

/-- Run a command, and do before and after it what is due on signals. -/
def runCommand : Nat → Context → State → Command → State
  | 0, _, state, _ => state.finish .killed
  | fuel + 1, context, state, command =>
      let ready := runTraps fuel state
      if !ready.isRunning || ready.hasOption 'n' then ready
      else
        let ran := runBody fuel context ready command
        let after := runTraps fuel ran
        let isChecked :=
          match command with
          | .simple .. | .pipeline _ | .subshell .. | .redirected _ (.subshell ..) _ => true
          | _ => false
        if isChecked && after.isRunning && after.hasOption 'e' && !context.tested &&
            ran.status ≠ 0 then
          after.finish (.exited (ran.status % 256))
        else after

def runBody : Nat → Context → State → Command → State
  | 0, _, state, _ => state.finish .killed
  | fuel + 1, context, state, command =>
      match command with
      | .simple line assignments words targets =>
          runSimple fuel context { state with line := line } assignments words targets
      | .pipeline stages => runStages fuel context.tested state none [] stages
      | .negated body =>
          let next := runCommand fuel ⟨false, true⟩ state body
          if next.isRunning then next.withStatus (if next.status = 0 then 1 else 0) else next
      | .joined first connective second =>
          let next := runCommand fuel ⟨false, true⟩ state first
          if next.isRunning && ((next.status = 0) == (connective = .andThen)) then
            runCommand fuel context next second
          else next
      | .redirected line (.subshell inner body) targets =>
          runSubshell fuel context { state with line := line } inner body targets
      | .redirected line body targets =>
          let (expanded, ready) := expandTargets fuel { state with line := line } targets
          if !expanded.isRunning then expanded
          else
            let opened := redirectAll fuel expanded ready
            if opened.flow = .failed then
              let back := { opened.restore state with flow := .running, status := 2 }
              if back.hasOption 'e' && !context.tested then back.finish (.exited 2) else back
            else if !opened.isRunning then opened.restore state
            else
              (runCommand fuel { context with last := false } opened body).restore state
      | .group body => runScript fuel context state body
      | .subshell line body => runSubshell fuel context { state with line := line } line body []
      | .branch condition yes no =>
          let next := runScript fuel ⟨false, true⟩ state condition
          if !next.isRunning then next
          else if next.status = 0 then runScript fuel context next yes
          else if no = [] then next.withStatus 0
          else runScript fuel context next no
      | .loop untilTrue condition body =>
          (runLoop fuel context.tested state.enterLoop untilTrue condition body 0).leaveLoop
      | .each line name words body =>
          let placed := { state with line := line }
          let (next, fields) :=
            match words with
            | none => (placed, state.arguments)
            | some given => expandWords fuel placed given
          if !next.isRunning then next
          else if fields = [] then next.withStatus 0
          else (runEach fuel context.tested next.enterLoop name fields body).leaveLoop
      | .cases line subject clauses =>
          let (next, text) := expandText fuel { state with line := line } false subject
          if next.isRunning then runClauses fuel context next text.toList clauses else next
      | .define name body =>
          { state with
            functions := (name, body) :: state.functions.filter fun entry => entry.1 ≠ name
            status := 0 }

/-- Run a list of commands in a process of its own, unless this process ends with it. -/
def runSubshell : Nat → Context → State → Nat → Script → List Redirection → State
  | 0, _, state, _, _, _ => state.finish .killed
  | fuel + 1, context, state, _, body, targets =>
      let (expanded, ready) := expandTargets fuel state targets
      if !expanded.isRunning then expanded
      else
        let run := fun child : State =>
          let opened := redirectAll fuel child ready
          concludeShell fuel
            (if opened.isRunning then runScript fuel ⟨true, context.tested⟩ opened body else opened)
        if context.last && !expanded.hasTraps then run expanded.asSubshell
        else expanded.resume (run expanded.child) 0

/-- Run the stages of a pipeline, the next of which reads from a source; `ends` tells when and how
those before it have ended. -/
def runStages : Nat → Bool → State → Option Source → List (Nat × End) → List Command → State
  | 0, _, state, _, _, _ => state.finish .killed
  | _ + 1, _, state, _, _, [] => state
  | fuel + 1, tested, state, source, ends, stage :: rest =>
      let (identity, begun) := state.freshIdentity
      let fed :=
        match source with
        | none => begun.child
        | some given =>
            let (channel, next) := begun.child.openSource given
            next.setChannel 0 channel
      let child := if rest = [] then fed else fed.setChannel 1 (.target (.pipe identity))
      let ended := concludeShell fuel (runCommand fuel ⟨true, tested⟩ child stage)
      let world := ended.remains
      let output : Source := ⟨world.writesTo (.pipe identity), world.endOf (.pipe identity)⟩
      let known := ends ++ [(ended.clock, ended.ending)]
      if rest = [] then (begun.adopt world).awaitStages known ended.ending.status
      else runStages fuel tested (begun.adopt world) (some output) known rest

/-- Run a loop; `status` is that of the last run of its body. -/
def runLoop : Nat → Bool → State → Bool → Script → Script → Nat → State
  | 0, _, state, _, _, _, _ => state.finish .killed
  | fuel + 1, tested, state, untilTrue, condition, body, status =>
      let judged := (runScript fuel ⟨false, true⟩ state condition).spend State.commandTime
      let (next, again) := judged.afterBody
      if judged.isRunning && ((judged.status = 0) != untilTrue) then
        let (after, more) := (runScript fuel ⟨false, tested⟩ judged body).afterBody
        if more then runLoop fuel tested after untilTrue condition body after.status else after
      else if judged.isRunning then judged.withStatus status
      else if again then runLoop fuel tested next untilTrue condition body status
      else if next.isRunning then next.withStatus status
      else next

/-- Run a body for each of some words. -/
def runEach : Nat → Bool → State → String → List String → Script → State
  | 0, _, state, _, _, _ => state.finish .killed
  | _ + 1, _, state, _, [], _ => state
  | fuel + 1, tested, state, name, word :: rest, body =>
      let bound := state.bind name word
      if !bound.isRunning then bound
      else
        let (after, again) := (runScript fuel ⟨false, tested⟩ bound body).afterBody
        if again then runEach fuel tested after name rest body else after

/-- Run the first clause with a pattern that describes the subject. -/
def runClauses : Nat → Context → State → List Char → List (List Word × Script) → State
  | 0, _, state, _, _ => state.finish .killed
  | _ + 1, _, state, _, [] => state.withStatus 0
  | fuel + 1, context, state, subject, (alternatives, body) :: rest =>
      let (next, found) := anyMatches fuel state subject alternatives
      if !next.isRunning then next
      else if found then
        if body = [] then next.withStatus 0 else runScript fuel context next body
      else runClauses fuel context next subject rest

/-- Whether one of some patterns describes a subject. -/
def anyMatches : Nat → State → List Char → List Word → State × Bool
  | 0, state, _, _ => (state, false)
  | _ + 1, state, _, [] => (state, false)
  | fuel + 1, state, subject, word :: rest =>
      let (next, pieces) := expandParts fuel state (expandHome state false word)
      if !next.isRunning then (next, false)
      else if matchesPattern (Piece.joined next.joint pieces) subject then (next, true)
      else anyMatches fuel next subject rest

def runSimple : Nat → Context → State → List (String × Word) → List Word → List Redirection → State
  | 0, _, state, _, _, _ => state.finish .killed
  | fuel + 1, context, state, assignments, words, targets =>
      let begun := { state.spend State.commandTime with outcome := 0 }
      let (expanded, fields) :=
        if begun.isRunning then expandCommand fuel begun [] words else (begun, [])
      let (placed, ready) :=
        if expanded.isRunning then expandTargets fuel expanded targets else (expanded, [])
      if !placed.isRunning then placed
      else
        let opened := redirectAll fuel placed ready
        let call? := fields.head?.map fun name => Call.ofFields placed name fields.tail
        let isSpecial : Bool :=
          match call? with
          | some call => call.isSpecial placed
          | none => false
        if opened.flow = .failed then
          let back := opened.restore placed
          if isSpecial then back else { back with flow := .running, status := 2 }
        else if !opened.isRunning then opened.restore placed
        else
          let inScope := call?.isSome && !isSpecial
          let (assigned, values) :=
            assignAll fuel (if inScope then opened.openScope else opened) inScope assignments
          let traced :=
            if assigned.isRunning && assigned.hasOption 'x' then
              traceCommand fuel assigned placed values fields
            else assigned
          if !traced.isRunning then
            (if inScope then traced.closeScope else traced).restore placed
          else
            match call? with
            | none => (traced.withStatus traced.outcome).restore placed
            | some call =>
                if call.name = "exec" && !call.isFunction traced then
                  runExec fuel traced placed call assignments
                else
                  let ran := runCall fuel context traced call
                  (if inScope then ran.closeScope else ran).restore placed

/-- Show a command before it runs, where the shell reports its errors. -/
def traceCommand : Nat → State → State → List (String × String) → List String → State
  | 0, state, _, _, _ => state
  | fuel + 1, state, before, values, fields =>
      let mark := (state.valueOf? "PS4").getD ""
      let word : Word :=
        match Grammar.quoted (16 * mark.length + 64) .document [] ⟨mark.toList, 1, 0⟩ with
        | .ok (found, _) => found
        | .error _ => [.text mark.toList true]
      let quiet :=
        { state with options := state.options.filter fun letter => letter ≠ 'x' }
      let (next, start) := expandText fuel quiet false word
      let told :=
        { next with descriptors := before.descriptors }.say 2 (State.traceText start values fields)
      { told with descriptors := state.descriptors, options := state.options }

/-- Let a program take the place of the shell, or keep the redirections of the command. -/
def runExec : Nat → State → State → Call → List (String × Word) → State
  | 0, state, _, _, _ => state.finish .killed
  | fuel + 1, state, before, call, assignments =>
      match call.arguments with
      | [] =>
          let held := { state with descriptors := before.descriptors }.recordHolding
          { held with descriptors := state.descriptors, status := 0 }
      | program :: rest =>
          let exposed := assignments.foldl (fun current entry => current.expose entry.1) state
          let called := { exposed with caller := some "exec" }
          let ran := runProgram fuel .exec called call.usual program rest
          if ran.replaced then ran
          else
            { ran.restore before with
              caller := state.caller
              flow := if ran.hasEnded then ran.flow else .ended (.exited ran.status) }

/-- Run a function, a command of the shell or a program. -/
def runCall : Nat → Context → State → Call → State
  | 0, _, state, _ => state.finish .killed
  | fuel + 1, context, state, call =>
      let inside := fun (name : String) (run : State → State) =>
        let ran := run { state with caller := some name }
        let back := { ran with caller := state.caller }
        if back.flow = .failed && !call.isSpecial state then
          { back with flow := .running, status := 2 }
        else back
      match (if call.plain then none else state.functions.lookup call.name) with
      | some body =>
          let begun := { state with
            arguments := call.arguments
            loops := 0
            optionPlace := (1, none) }
          let ran := runCommand fuel ⟨false, context.tested⟩ begun body
          let back := { ran with
            arguments := state.arguments
            loops := state.loops
            optionPlace := state.optionPlace }
          if back.flow = .returning then { back with flow := .running } else back
      | none =>
          match call.name with
          | "eval" =>
              if call.arguments = [] then state.withStatus 0
              else
                inside "eval" fun begun =>
                  runText fuel ⟨false, context.tested⟩ begun (Utility.spaced call.arguments)
          | "." => inside "." fun begun => runOther fuel begun call.arguments
          | "command" => inside "command" fun begun => Builtin.describeCommand begun call.arguments
          | name =>
              match Builtin.find? name with
              | some command => inside name fun begun => command begun call.arguments
              | none =>
                  runProgram fuel (if context.last && !state.hasTraps then .final else .child) state
                    call.usual name call.arguments

/-- Run the script in a file as part of this one. -/
def runOther : Nat → State → List String → State
  | 0, state, _ => state.finish .killed
  | fuel + 1, state, arguments =>
      Builtin.withOptions [] state arguments fun options =>
        match options.operands with
        | [] => state.withStatus 0
        | name :: _ =>
            let folders := Image.foldersOf ((state.valueOf? "PATH").getD "")
            let candidates :=
              if name.toList.contains '/' then [name]
              else
                (folders.map fun folder => Path.append folder name).filter fun path =>
                  state.world.tree.namesFile state.directory path
            match candidates with
            | [] => state.fail (name ++ ": not found")
            | path :: _ =>
                match state.inputAt path with
                | (next, .ok input) =>
                    let text := (Text.Utf8.decode input.bytes).toList
                    let ran := runLines fuel ⟨false, false⟩ .file false
                      { next with caller := some path } ⟨text, 1, 0⟩
                    if ran.flow = .returning then { ran with flow := .running } else ran
                | (next, .error .isDirectory) => next.withStatus 0
                | (next, .error fault) =>
                    next.fail (State.openFault "cannot open" path "No such file" fault)

/-- Run a program, in place of this process or as a process of its own. -/
def runProgram : Nat → Start → State → Bool → String → List String → State
  | 0, _, state, _, _, _ => state.finish .killed
  | fuel + 1, start, state, usual, name, arguments =>
      let path := if usual then Image.usualPath else (state.valueOf? "PATH").getD ""
      let found : Except FileError Image :=
        if name.isEmpty then .error .permissionDenied
        else if hasLongArgument arguments then .error .argumentsTooLong
        else
          match Image.find state.world.tree state.directory path name with
          | .error .notExecutable =>
              .ok ⟨"sh", [(Builtin.placeOf? state path name).getD name], none⟩
          | other => other
      match found with
      | .ok image =>
          let title := image.title.getD name
          if start ≠ .child then
            let started := (state.spend State.startTime).asProgram
            runImage fuel { started with name := title } image arguments
          else
            let known := Builtin.track state path name
            let child := { known.child.spend State.startTime with name := title }
            known.resume (runImage fuel child image arguments) 0
      | .error fault =>
          let isLookedUp := start ≠ .exec && !name.toList.contains '/'
          let (reason, status) := startFault isLookedUp fault
          (state.complain (name ++ ": " ++ reason)).withStatus status

/-- Run what has been found under the name of a program. -/
def runImage : Nat → State → Image → List String → State
  | 0, state, _, _ => state.finish .killed
  | fuel + 1, state, image, arguments =>
      let words := image.arguments ++ arguments
      if !state.isRunning then state.conclude
      else if image.program = "sh" ∨ image.program = "dash" then runShell fuel state words
      else
        match Utility.demand? image.program state words with
        | some demand => fulfil fuel demand
        | none => (Utility.run image.program state words).conclude

/-- Do what a program asks for that runs another one. -/
def fulfil : Nat → Demand → State
  | 0, .ended state | 0, .replace state _ | 0, .limit state _ _ | 0, .each state _ =>
      state.finish .killed
  | _ + 1, .ended state => state.conclude
  | fuel + 1, .replace state attempt => tryProgram fuel state attempt
  | fuel + 1, .limit state attempt limit => runLimited fuel state attempt limit
  | fuel + 1, .each state commands => runGathered fuel state commands

/-- Let a program take the place of another one, or tell why it cannot. -/
def tryProgram : Nat → State → Attempt → State
  | 0, state, _ => state.finish .killed
  | fuel + 1, state, attempt =>
      let path :=
        if state.exported.contains "PATH" then (state.valueOf? "PATH").getD Image.sparsePath
        else Image.sparsePath
      let found : Except FileError Image :=
        if hasLongArgument attempt.arguments then .error .argumentsTooLong
        else Image.find state.world.tree state.directory path attempt.program
      match found with
      | .ok image =>
          let named := { state with name := image.title.getD attempt.program }
          runImage fuel named image attempt.arguments
      | .error .notExecutable =>
          let place := (Builtin.placeOf? state path attempt.program).getD attempt.program
          runImage fuel { state with name := "/bin/sh" } ⟨"sh", [place], none⟩ attempt.arguments
      | .error fault =>
          let told := Utility.report state (attempt.failure ++ ": " ++ fault.reason)
            (if fault = .notFound then 127 else 126)
          match attempt.hint with
          | some hint =>
              if fault = .notFound then (Utility.report told hint 127).conclude else told.conclude
          | none => told.conclude

/-- Run a program as a child that gets a signal when its time is over, and with it all processes
that it has started. -/
def runLimited : Nat → State → Attempt → Limit → State
  | 0, state, _, _ => state.finish .killed
  | fuel + 1, state, attempt, limit =>
      let first := state.world.fresh
      let deadline := state.clock + limit.time
      let strikes := (deadline, limit.signal) ::
        (limit.killAfter.map fun grace => (deadline + grace, 9)).toList
      let ended := tryProgram fuel { state.child with arriving := strikes } attempt
      let world := ended.remains
      let isLate : Bool := deadline ≤ ended.clock
      let kept := world.log.filterMap fun entry =>
        if isLate && first ≤ entry.process && ended.clock < entry.moment then
          match entry.bytes with
          | some _ => none
          | none => some { entry with moment := ended.clock }
        else some entry
      let after := (state.adopt { world with log := kept }).waitUntil ended.clock
      if after.hasEnded then after
      else
        match ended.ending with
        | .signaled 9 =>
            if isLate then after.finish (.signaled 9) else after.finish (.signaled 9)
        | .signaled signal =>
            if isLate then
              after.finish (.exited (if limit.transparent then 128 + signal else 124))
            else after.finish (.signaled signal)
        | other =>
            after.finish (.exited (if isLate && !limit.transparent then 124 else other.status))

/-- Run commands one after the other as children, until one asks to stop. -/
def runGathered : Nat → State → List (List String) → State
  | 0, state, _ => state.finish .killed
  | _ + 1, state, [] => state.conclude
  | fuel + 1, state, command :: rest =>
      match command with
      | [] => runGathered fuel state rest
      | program :: arguments =>
          let child := (state.child.setChannel 0 (.device .null)).spend State.startTime
          let attempt : Attempt := ⟨program, arguments, program, none⟩
          let ended := tryProgram fuel child attempt
          let after := (state.adopt ended.remains).waitUntil ended.clock
          if after.hasEnded then after
          else
            match ended.ending with
            | .exited 0 => runGathered fuel after rest
            | .exited 255 =>
                (Utility.report after
                    (program ++ ": exited with status 255; aborting") 124).conclude
            | .exited 127 => (after.withStatus 127).conclude
            | .exited 126 => (after.withStatus 126).conclude
            | .exited _ => runGathered fuel (after.withStatus 123) rest
            | .signaled signal =>
                (Utility.report after
                  (program ++ ": terminated by signal " ++
                      Text.Numeral.decimal signal) 125).conclude
            | .killed => after.finish .killed

/-- Run a script from a place in its text, to the end of the shell. -/
def runWhole : Nat → State → ScriptSource → List Char → State
  | 0, state, _, _ => state.finish .killed
  | fuel + 1, state, kind, text =>
      concludeShell fuel
          (runLines fuel ⟨false, false⟩ kind true { state with line := 1 } ⟨text, 1, 0⟩)

/-- Run the shell as a program, with its own arguments. -/
def runShell : Nat → State → List String → State
  | 0, state, _ => state.finish .killed
  | fuel + 1, state, words =>
      let (ready, hasText, left) := shellOptions (words.length + 1) state.asNewShell words
      let fromInput := fun place : State =>
        match place.takeAll 0 with
        | (next, .ok input) =>
            runWhole fuel (next.waitUntil input.finish) .file (Text.Utf8.decode input.bytes).toList
        | (next, .error _) => concludeShell fuel next
      let isInput := ready.hasOption 's'
      if !ready.isRunning then concludeShell fuel ready
      else if hasText then
        match left with
        | [] => concludeShell fuel (ready.fail "-c requires an argument")
        | text :: others =>
            let placed := { ready with
              name := others.headD ready.name
              arguments := others.tail
              line := 1 }
            if isInput then
              let ran := runLines fuel ⟨false, false⟩ .text true placed ⟨text.toList, 1, 0⟩
              if ran.isRunning then fromInput ran else concludeShell fuel ran
            else runWhole fuel placed .text text.toList
      else
        match left with
        | path :: others =>
            if isInput then fromInput { ready with arguments := left }
            else
              match ready.inputAt path with
              | (next, .ok input) =>
                  let placed := { next with name := path, arguments := others }
                  runWhole fuel placed .file (Text.Utf8.decode input.bytes).toList
              | (next, .error .isDirectory) => concludeShell fuel next
              | (next, .error fault) =>
                  concludeShell fuel
                    (next.fail (State.openFault "cannot open" path "No such file" fault))
        | [] => fromInput { ready with options := ready.options ++ ['s'] }

end

end CaseHarness.Shell
