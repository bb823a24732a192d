import CaseHarness.Shell.Programs
import CaseHarness.Shell.Utility.Calculation
import CaseHarness.Shell.Utility.Content
import CaseHarness.Shell.Variables

/-!
# Programs that run others

Some programs only prepare a process and then run another program in it, or as a
child that is limited in time, or several times with words from the input.  This
module tells what they ask for; running it is left to the interpreter.
-/

namespace CaseHarness.Shell

/-- A limit for a child. -/
structure Limit where
  /-- How long the child may run, and the signal that it gets then. -/
  time : Nat
  signal : Nat
  /-- How long after that it is killed, if it is. -/
  killAfter : Option Nat
  /-- Whether the status is that of the child in any case. -/
  transparent : Bool
  deriving DecidableEq, Repr

/-- An attempt to run a program. -/
structure Attempt where
  program : String
  arguments : List String
  /-- What stands before the reason if the attempt fails. -/
  failure : String
  /-- What else is said if there is no such program. -/
  hint : Option String := none
  deriving DecidableEq, Repr

/-- What a program asks for that runs another one. -/
inductive Demand where
  /-- Nothing; the program has ended. -/
  | ended (state : State)
  /-- Run a program in place of this one. -/
  | replace (state : State) (attempt : Attempt)
  /-- Run a program as a child that is limited in time. -/
  | limit (state : State) (attempt : Attempt) (limit : Limit)
  /-- Run programs one after the other as children. -/
  | each (state : State) (commands : List (List String))

namespace Utility

/-! ### Environments -/

/-- Why words in one text cannot be told apart. -/
inductive SplitFault where
  | noQuote
  | noCharacter
  | badEscape (letter : Char)
  | badVariable (text : String)
  deriving DecidableEq, Repr

/-- What is said about words that cannot be told apart. -/
def SplitFault.text : SplitFault → String
  | noQuote => "no terminating quote in -S string"
  | noCharacter => "invalid backslash at end of string in -S"
  | badEscape letter => "invalid sequence '\\" ++ String.ofList [letter] ++ "' in -S"
  | badVariable text => "only $\x7bVARNAME\x7d expansion is supported, error at: " ++ text

/-- What stands around the characters of a text with words. -/
inductive SplitQuote where
  | none
  | single
  | double
  deriving DecidableEq, Repr

/-- The words of one text; `begun` is the present word in reverse, if there is one. -/
def splitWords (values : String → String) (quote : SplitQuote) (begun : Option (List Char)) :
    Nat → List Char → Except SplitFault (List String)
  | 0, _ => .ok []
  | fuel + 1, characters =>
      let finished := (begun.map fun word => String.ofList word.reverse).toList
      let add := fun (added rest : List Char) =>
        splitWords values quote (some (added.reverse ++ begun.getD [])) fuel rest
      match quote, characters with
      | .none, [] => .ok finished
      | _, [] => .error .noQuote
      | .single, '\x27' :: rest => splitWords values .none begun fuel rest
      | .single, '\\' :: '\\' :: rest => add ['\\'] rest
      | .single, '\\' :: '\x27' :: rest => add ['\x27'] rest
      | .single, character :: rest => add [character] rest
      | .double, '"' :: rest => splitWords values .none begun fuel rest
      | .none, '"' :: rest => splitWords values .double (some (begun.getD [])) fuel rest
      | .none, '\x27' :: rest => splitWords values .single (some (begun.getD [])) fuel rest
      | _, ['\\'] => .error .noCharacter
      | _, '\\' :: letter :: rest =>
          match letter, quote with
          | 'c', .double => .error (.badEscape 'c')
          | 'c', _ => .ok finished
          | '_', .double => add [' '] rest
          | '_', _ => (splitWords values .none none fuel rest).map fun words => finished ++ words
          | 'f', _ => add ['\x0c'] rest
          | 'n', _ => add ['\n'] rest
          | 'r', _ => add ['\r'] rest
          | 't', _ => add ['\t'] rest
          | 'v', _ => add ['\x0b'] rest
          | other, _ =>
              if ['"', '#', '$', '\\', '\x27'].contains other then add [other] rest
              else .error (.badEscape other)
      | _, '$' :: rest =>
          match rest with
          | '\x7b' :: inner =>
              let name := inner.takeWhile fun character => character ≠ '\x7d'
              if Grammar.isName name && name.length < inner.length then
                add (values (String.ofList name)).toList (inner.drop (name.length + 1))
              else .error (.badVariable (String.ofList characters))
          | _ => .error (.badVariable (String.ofList characters))
      | .none, character :: rest =>
          if [' ', '\t', '\n', '\x0b', '\x0c', '\r'].contains character then
            (splitWords values .none none fuel rest).map fun words => finished ++ words
          else if character = '#' && begun.isNone then .ok []
          else add [character] rest
      | .double, character :: rest => add [character] rest

/-- The options that change the environment of a program. -/
def environmentOptions : OptionTable where
  letters := [('i', false), ('0', false), ('v', false), ('u', true), ('C', true), ('S', true)]
  names := [("ignore-environment", 'i'), ("null", '0'), ("debug", 'v'), ("unset", 'u'),
    ("chdir", 'C'), ("split-string", 'S')]

/-- Why an environment cannot be prepared. -/
inductive EnvironmentFault where
  | option (fault : OptionFault)
  | split (fault : SplitFault)

/-- The options before the other words; words inside an option take its place. -/
def readEnvironmentOptions (values : String → String) :
    Nat → List String → Except EnvironmentFault Options
  | 0, words => .ok ⟨[], words⟩
  | _ + 1, [] => .ok {}
  | fuel + 1, word :: rest =>
      let goOn := fun (found : Except OptionFault (List (Char × String) × List String)) =>
        match found with
        | .error fault => .error (.option fault)
        | .ok (given, left) =>
            let next : Except EnvironmentFault Options :=
              match given.getLast? with
              | some ('S', text) =>
                  match splitWords values .none none (4 * text.length + 4) text.toList with
                  | .error fault => .error (.split fault)
                  | .ok words => readEnvironmentOptions values fuel (words ++ left)
              | _ => readEnvironmentOptions values fuel left
            next.map fun others => ⟨given ++ others.given, others.operands⟩
      match word.toList with
      | ['-', '-'] => .ok ⟨[], rest⟩
      | ['-'] => .ok ⟨[('i', "")], rest⟩
      | '-' :: '-' :: _ =>
          goOn ((Options.long environmentOptions word rest).map fun (found, left) =>
            ([found], left))
      | '-' :: letter :: letters =>
          goOn (Options.cluster environmentOptions (letter :: letters) rest)
      | _ => .ok ⟨[], word :: rest⟩

/-- The environment that options and assignments ask for, and the words that follow. -/
def changeEnvironment (state : State) (options : Options) : State × List String :=
  let cleared : State :=
    if options.has 'i' then { state with exported := [], bindings := [] } else state
  let removed := options.given.foldl
    (fun (current : State) (letter, name) => if letter = 'u' then current.unset name else current)
    cleared
  let assignments := options.operands.takeWhile fun word => word.toList.contains '='
  let assigned := assignments.foldl
    (fun (current : State) word =>
      match cutAssignment word with
      | (name, some value) => (current.assign name value).expose name
      | (_, none) => current)
    removed
  (assigned, options.operands.drop assignments.length)

/-- Run a program with a changed environment, or show the environment. -/
def environment (state : State) (arguments : List String) : Demand :=
  let values := fun name : String =>
    if state.exported.contains name then (state.valueOf? name).getD "" else ""
  let weight := arguments.foldl (fun sum word => sum + word.length) (arguments.length + 1)
  match readEnvironmentOptions values weight arguments with
  | .error (.option fault) => .ended (misuse state fault.text 125)
  | .error (.split fault) => .ended (report state fault.text 125)
  | .ok options =>
      let wrong := options.given.find? fun entry =>
        entry.1 = 'u' && (entry.2 = "" || entry.2.toList.contains '=')
      let (changed, words) := changeEnvironment state options
      match wrong, words with
      | some (_, name), _ =>
          .ended (report state ("cannot unset " ++ inQuotes name ++ ": Invalid argument") 125)
      | none, [] =>
          if options.has 'C' then
            .ended (misuse state "must specify command with --chdir (-C)" 125)
          else
            let ending := if options.has '0' then "\x00" else "\n"
            let lines := changed.exported.eraseDups.filterMap fun name =>
              (changed.valueOf? name).map fun value => name ++ "=" ++ value ++ ending
            .ended (emitText (changed.withStatus 0) (String.join lines))
      | none, program :: rest =>
          if options.has '0' then
            .ended (misuse state "cannot specify --null (-0) with command" 125)
          else
            let hint :=
              if program.toList.any Number.isSpace then
                some "use -[v]S to pass options in shebang lines"
              else none
            let run := fun place : State =>
              Demand.replace place ⟨program, rest, inQuotes program, hint⟩
            match options.argument? 'C' with
            | none => run changed
            | some path =>
                match changed.world.tree.locate changed.directory path with
                | .ok location =>
                    if changed.world.tree.node? location = some .folder then
                      run { changed with directory := location }
                    else
                      .ended (report state
                        ("cannot change directory to " ++ inQuotes path ++ ": Not a directory") 125)
                | .error fault =>
                    .ended (report state
                      ("cannot change directory to " ++ inQuotes path ++ ": " ++ fault.reason) 125)

/-! ### Limits -/

/-- The options of the program that limits another one in time. -/
def limitOptions : OptionTable where
  letters := [('k', true), ('s', true), ('v', false), ('\x01', false), ('\x02', false)]
  names := [("kill-after", 'k'), ("signal", 's'), ("verbose", 'v'), ("foreground", '\x01'),
    ("preserve-status", '\x02')]

/-- The signal with a number or a name, which may begin with the letters of all signal names. -/
def signalNamed? (word : String) : Option Nat :=
  let upper := word.map Char.toUpper
  let bare :=
    if "SIG".toList.isPrefixOf upper.toList then String.ofList (upper.toList.drop 3) else upper
  Signal.ofWord? 1 bare

/-- Run a program that is limited in time. -/
def timeout (state : State) (arguments : List String) : Demand :=
  let hint := fun (place : State) =>
    (place.say 2 ("Try '" ++ state.name ++ " --help' for more information.\n")).withStatus 125
  match Options.beforeOperands limitOptions arguments with
  | .error fault => .ended (misuse state fault.text 125)
  | .ok options =>
      let badTime := fun word : String =>
        Demand.ended (misuse state ("invalid time interval " ++ inQuotes word) 125)
      let killAfter := options.argument? 'k'
      match killAfter.map lengthOfTime?, signalNamed? ((options.argument? 's').getD "TERM"),
          options.operands with
      | some none, _, _ => badTime (killAfter.getD "")
      | _, none, _ =>
          .ended (misuse state
            (inQuotes ((options.argument? 's').getD "") ++ ": invalid signal") 125)
      | _, some _, [] | _, some _, [_] => .ended (hint state)
      | grace, some signal, time :: program :: rest =>
          match lengthOfTime? time with
          | none => badTime time
          | some duration =>
              .limit state ⟨program, rest, "failed to run command " ++ inQuotes program, none⟩
                ⟨if duration = 0 then State.never else duration, signal, grace.join,
                  options.has '\x02'⟩

/-! ### Plain prefixes -/

/-- Run a program with a changed priority, which changes nothing else. -/
def nice (state : State) (arguments : List String) : Demand :=
  match Options.beforeOperands ⟨[('n', true)], [("adjustment", 'n')]⟩ arguments with
  | .error fault => .ended (misuse state fault.text 125)
  | .ok options =>
      match options.argument? 'n', options.operands with
      | some word, operands =>
          match Number.decimal? word, operands with
          | none, _ => .ended (report state ("invalid adjustment " ++ inQuotes word) 125)
          | some _, [] => .ended (misuse state "a command must be given with an adjustment" 125)
          | some _, program :: rest => .replace state ⟨program, rest, inQuotes program, none⟩
      | none, [] => .ended (emitText (state.withStatus 0) "0\n")
      | none, program :: rest => .replace state ⟨program, rest, inQuotes program, none⟩

/-- Run a program that does not notice the end of its terminal. -/
def nohup (state : State) (arguments : List String) : Demand :=
  match Options.beforeOperands ⟨[], []⟩ arguments with
  | .error fault => .ended (misuse state fault.text 125)
  | .ok ⟨_, []⟩ => .ended (misuse state "missing operand" 125)
  | .ok ⟨_, program :: rest⟩ =>
      .replace { state with ignored := 1 :: state.ignored }
        ⟨program, rest, "failed to run command " ++ inQuotes program, none⟩

/-- Run a program in a session of its own. -/
def setsid (state : State) (arguments : List String) : Demand :=
  match Options.beforeOperands ⟨[('c', false), ('f', false), ('w', false)],
      [("ctty", 'c'), ("fork", 'f'), ("wait", 'w')]⟩ arguments with
  | .error fault => .ended (misuse state fault.text 1)
  | .ok ⟨_, []⟩ => .ended (misuse state "no command specified" 1)
  | .ok ⟨_, program :: rest⟩ => 
      .replace state ⟨program, rest, "failed to execute " ++ program, none⟩

/-- Run a program with other buffers, which are too quick to be seen. -/
def stdbuf (state : State) (arguments : List String) : Demand :=
  match Options.beforeOperands ⟨[('i', true), ('o', true), ('e', true)],
      [("input", 'i'), ("output", 'o'), ("error", 'e')]⟩ arguments with
  | .error fault => .ended (misuse state fault.text 125)
  | .ok ⟨_, []⟩ => .ended (misuse state "missing operand" 125)
  | .ok ⟨[], _⟩ => .ended (misuse state "you must specify a buffering mode option" 125)
  | .ok ⟨_, program :: rest⟩ =>
      .replace state ⟨program, rest, "failed to run command " ++ inQuotes program, none⟩

/-! ### Words from the input -/

/-- The words of an input: blanks and newlines separate them, quotes and backslashes protect.  A
quote that stays open on its line is a fault. -/
def inputWords (begun : Option (List Char)) : Nat → List Char → Except Char (List String)
  | 0, _ => .ok []
  | fuel + 1, characters =>
      let finished := (begun.map fun word => String.ofList word.reverse).toList
      match characters with
      | [] => .ok finished
      | '\\' :: character :: rest => inputWords (some (character :: begun.getD [])) fuel rest
      | character :: rest =>
          if character = '"' || character = '\x27' then
            let content := rest.takeWhile fun other => other ≠ character && other ≠ '\n'
            match rest.drop content.length with
            | '\n' :: _ | [] => .error character
            | _ :: others => inputWords (some (content.reverse ++ begun.getD [])) fuel others
          else if Number.isSpace character then
            (inputWords none fuel rest).map fun words => finished ++ words
          else inputWords (some (character :: begun.getD [])) fuel rest

/-- The options of the program that makes commands from its input. -/
def gatherOptions : OptionTable where
  letters := [('n', true), ('L', true), ('I', true), ('i', false), ('d', true), ('P', true),
    ('s', true), ('0', false), ('r', false), ('t', false), ('x', false)]
  names := [("max-args", 'n'), ("max-lines", 'L'), ("replace", 'I'), ("delimiter", 'd'),
    ("max-procs", 'P'), ("max-chars", 's'), ("null", '0'), ("no-run-if-empty", 'r'),
    ("verbose", 't'), ("exit", 'x')]

/-- Groups of at most a given number of words. -/
def groupsOf (size : Nat) : Nat → List String → List (List String)
  | 0, _ => []
  | _ + 1, [] => []
  | fuel + 1, words => words.take size :: groupsOf size fuel (words.drop size)

def replaceMark (mark value : List Char) : Nat → List Char → List Char
  | 0, text => text
  | _ + 1, [] => []
  | fuel + 1, character :: rest =>
      if mark ≠ [] ∧ mark.isPrefixOf (character :: rest) then
        value ++ replaceMark mark value fuel ((character :: rest).drop mark.length)
      else character :: replaceMark mark value fuel rest

/-- Run commands that end in words of the input. -/
def gather (state : State) (arguments : List String) : Demand :=
  match Options.beforeOperands gatherOptions arguments with
  | .error fault => .ended (misuse state fault.text 1)
  | .ok options =>
      let command := if options.operands = [] then ["echo"] else options.operands
      match state.readWhole "-" with
      | (next, .error _) => .ended (next.withStatus 1)
      | (next, .ok bytes) =>
          let text := (Text.Utf8.decode bytes).toList
          let cut := fun mark : Char =>
            ((Path.split mark text).map String.ofList).reverse.dropWhile
              (fun piece => piece = "") |>.reverse
          let lines := ((Path.split '\n' text).map fun line =>
            String.ofList (line.dropWhile Number.isSpace)).filter fun line => line ≠ ""
          let found : Except Char (List String) :=
            match options.argument? 'd' with
            | some mark => .ok (cut ((mark.toList.head?).getD '\n'))
            | none =>
                if options.has '0' then .ok (cut '\x00')
                else if options.has 'I' then .ok lines
                else inputWords none (text.length + 1) text
          let size := fun letter : Char => ((options.argument? letter).bind Number.count?).getD 0
          match found with
          | .error mark =>
              .ended (report next ("unmatched " ++ (if mark = '"' then "double" else "single") ++
                " quote; by default quotes are special to xargs unless you use the -0 option") 1)
          | .ok words =>
              let commands : List (List String) :=
                match options.argument? 'I' with
                | some mark =>
                    words.map fun word => command.map fun piece =>
                      String.ofList
                          (replaceMark mark.toList word.toList (piece.length + 1) piece.toList)
                | none =>
                    if words = [] then (if options.has 'r' then [] else [command])
                    else if 0 < size 'n' then
                      (groupsOf (size 'n') words.length words).map fun group => command ++ group
                    else if 0 < size 'L' then
                      let grouped := groupsOf (size 'L') lines.length lines
                      grouped.map fun group =>
                        let joined := String.intercalate " " group
                        match inputWords none (joined.length + 1) joined.toList with
                        | .ok found => command ++ found
                        | .error _ => command
                    else [command ++ words]
              .each (next.withStatus 0) commands

/-- Show where programs are found along the search path. -/
def which (state : State) (arguments : List String) : State :=
  withOptions ⟨[('a', false), ('s', false)], []⟩ 2 state arguments fun options =>
    let folders := Image.foldersOf ((state.valueOf? "PATH").getD "")
    let begun := state.withStatus (if options.operands = [] then 1 else 0)
    options.operands.foldl
      (fun (current : State) name =>
        let candidates :=
          if name.toList.contains '/' then [name]
          else folders.map fun folder => Path.append folder name
        let found := candidates.filter fun path =>
          match Image.ofPath current.world.tree current.directory Image.maxLevels path with
          | .ok _ | .error .notExecutable => true
          | .error _ => false
        let shown := if options.has 'a' then found else found.take 1
        if found = [] then current.withStatus 1
        else if options.has 's' then current
        else emitText current (String.join (shown.map fun path => path ++ "\n")))
      begun

/-- The programs that run others. -/
def wrappers : List String :=
  ["env", "nice", "nohup", "setsid", "stdbuf", "timeout", "which", "xargs"]

/-- What a program asks for that runs others. -/
def demand? (program : String) (state : State) (arguments : List String) : Option Demand :=
  match program with
  | "env" => some (environment state arguments)
  | "nice" => some (nice state arguments)
  | "nohup" => some (nohup state arguments)
  | "setsid" => some (setsid state arguments)
  | "stdbuf" => some (stdbuf state arguments)
  | "timeout" => some (timeout state arguments)
  | "which" => some (.ended (which state arguments))
  | "xargs" => some (gather state arguments)
  | _ => none

end Utility

end CaseHarness.Shell
