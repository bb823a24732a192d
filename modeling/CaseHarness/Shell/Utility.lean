import CaseHarness.Shell.Utility.Arrange
import CaseHarness.Shell.Utility.Calculation
import CaseHarness.Shell.Utility.Editor
import CaseHarness.Shell.Utility.Search
import CaseHarness.Shell.Utility.Transfer

/-!
# Utilities

The small programs that scripts use.  A utility changes the state of the process
that runs it and leaves its exit status.  `Utility.run` runs one as a program of
its own.
-/

namespace CaseHarness.Shell.Utility

/-- The signal that a program is asked to send, and the words that follow; `none` stands for a
signal that does not exist. -/
def signalAsked (arguments : List String) : Option Nat × List String :=
  let named := fun word : String =>
    let bare :=
      if "SIG".toList.isPrefixOf word.toList then String.ofList (word.toList.drop 3) else word
    Signal.ofWord? 1 bare
  match arguments with
  | "-s" :: name :: rest => (named name, rest)
  | "--" :: rest => (some 15, rest)
  | word :: rest =>
      match word.toList with
      | '-' :: name => (named (String.ofList name), rest)
      | _ => (some 15, arguments)
  | [] => (some 15, [])

/-- Send a signal to processes. -/
def kill (state : State) (arguments : List String) : State :=
  match signalAsked arguments with
  | (none, _) =>
      report state
          ("invalid argument " ++ String.ofList (((arguments.headD "").toList.drop 1).take 1)) 1
  | (some signal, receivers) =>
      (if receivers.head? = some "--" then receivers.tail else receivers).foldl
        (fun (current : State) receiver =>
          if current.hasEnded then current
          else
            match Text.Numeral.digits? receiver.toList with
            | none => report current ("failed to parse argument: " ++ inQuotes receiver) 1
            | some process =>
                match current.send signal process with
                | (next, true) => next
                | (next, false) => report next ("(" ++ receiver ++ "): No such process") 1)
        (state.withStatus 0)

/-- Write the values of variables that programs see, or all of them with their names. -/
def printVariables (state : State) (arguments : List String) : State :=
  match arguments with
  | [] =>
      let lines := state.exported.eraseDups.filterMap fun name =>
        (state.valueOf? name).map fun value => name ++ "=" ++ value ++ "\n"
      emitText (state.withStatus 0) (String.join lines)
  | names =>
      names.foldl
        (fun (current : State) name =>
          match (if state.exported.contains name then state.valueOf? name else none) with
          | some value => emitText current (value ++ "\n")
          | none => current.withStatus 1)
        (state.withStatus 0)

/-- How often a text without end is written before its reader is taken to be gone. -/
def maxRepetitions : Nat :=
  16384

/-- Write the arguments over and over, until nobody reads on. -/
def repeatWords (state : State) (arguments : List String) : State :=
  let text := (if arguments = [] then "y" else spaced arguments) ++ "\n"
  let line := Text.Utf8.encode text
  let written := emit (state.withStatus 0) (List.replicate maxRepetitions line).flatten
  if written.status ≠ 0 then written else written.finish (.signaled 13)

/-- Make a file or folder with a name of its own and write its path. -/
def makeTemporary (state : State) (arguments : List String) : State :=
  withOptions ⟨[('d', false), ('u', false), ('q', false), ('t', false), ('p', true)],
      [("directory", 'd'), ("dry-run", 'u'), ("tmpdir", 'p')]⟩ 1 state arguments fun options =>
    let template := (options.operands.head?).getD
      (Path.append ((options.argument? 'p').getD "/tmp") "tmp.XXXXXXXXXX")
    let marks := (template.toList.reverse.takeWhile fun character => character = 'X').length
    if marks < 3 then report state ("too few X's in template " ++ inQuotes template) 1
    else
      let (identity, next) := state.freshIdentity
      let digits := Nat.toDigits 10 identity
      let code := List.replicate (marks - digits.length) 'a' ++ digits
      let path := String.ofList (template.toList.take (template.length - marks) ++ code)
      match next.world.tree.writable next.directory path with
      | .error fault =>
          let kind := if options.has 'd' then "directory" else "file"
          report next
              ("failed to create " ++ kind ++ " via template " ++ inQuotes template ++ ": " ++
            fault.reason) 1
      | .ok location =>
          let node : Node := if options.has 'd' then .folder else .file [] false
          let made :=
            if options.has 'u' then next else next.setTree (next.world.tree.put location node)
          emitText (made.withStatus 0) (path ++ "\n")

/-- The second in which all scripts begin. -/
def epoch : Nat :=
  1700000000

/-- Write the time as a format asks for, in seconds and nanoseconds. -/
def showTime (state : State) (arguments : List String) : State :=
  let rec written : List Char → List Char
    | '%' :: 's' :: rest => Nat.toDigits 10 (epoch + state.clock / 1000000000) ++ written rest
    | '%' :: 'N' :: rest =>
        let digits := Nat.toDigits 10 (state.clock % 1000000000)
        List.replicate (9 - digits.length) '0' ++ digits ++ written rest
    | character :: rest => character :: written rest
    | [] => []
  match arguments.find? fun word => word.toList.head? = some '+' with
  | some format =>
      emitText (state.withStatus 0) (String.ofList (written (format.toList.drop 1)) ++ "\n")
  | none => emitText (state.withStatus 0) "Tue Nov 14 22:13:20 UTC 2023\n"

/-- The utilities that are programs of their own and run no others. -/
def programs : List String :=
  ["[", "basename", "cat", "chmod", "cp", "cut", "date", "dirname", "echo", "egrep", "expr",
    "false", "fgrep", "grep", "head", "id", "kill", "ln", "ls", "mkdir", "mktemp", "mv", "nl",
    "printenv", "printf", "pwd", "readlink", "realpath", "rev", "rm", "rmdir", "sed", "seq",
    "sleep", "sort", "sync", "tac", "tail", "tee", "test", "touch", "tr", "true", "tty", "uname",
    "uniq", "wc", "whoami", "yes"]

def run (utility : String) (state : State) (arguments : List String) : State :=
  match utility with
  | "[" => test .program state true arguments
  | "test" => test .program state false arguments
  | "basename" => baseName state arguments
  | "cat" => cat state arguments
  | "chmod" => changeMode state arguments
  | "cp" => copy state arguments
  | "cut" => cut state arguments
  | "date" => showTime state arguments
  | "dirname" => folderNames state arguments
  | "echo" => echo .program state arguments
  | "egrep" => search (some 'E') state arguments
  | "expr" => expression state arguments
  | "false" => state.withStatus 1
  | "fgrep" => search (some 'F') state arguments
  | "grep" => search none state arguments
  | "head" => head state arguments
  | "id" =>
      emitText (state.withStatus 0)
        (if arguments = [] then "uid=0(root) gid=0(root) groups=0(root)\n"
        else if arguments.any fun word => word.toList.contains 'n' then "root\n"
        else "0\n")
  | "kill" => kill state arguments
  | "ln" => link state arguments
  | "ls" => list state arguments
  | "mkdir" => makeFolder state arguments
  | "mktemp" => makeTemporary state arguments
  | "mv" => move state arguments
  | "nl" => numbered state arguments
  | "printenv" => printVariables state arguments
  | "printf" => printf .program state arguments
  | "pwd" => pwd state arguments
  | "readlink" => readLink state arguments
  | "realpath" => realPaths state arguments
  | "rev" => mirrored state arguments
  | "rm" => remove state arguments
  | "rmdir" => removeFolder state arguments
  | "sed" => editor state arguments
  | "seq" => numbers state arguments
  | "sleep" => sleep state arguments
  | "sort" => sort state arguments
  | "tac" => reversed state arguments
  | "tail" => tail state arguments
  | "tee" => tee state arguments
  | "touch" => touch state arguments
  | "tr" => translate state arguments
  | "tty" => (emitText (state.withStatus 0) "not a tty\n").withStatus 1
  | "uname" => emitText (state.withStatus 0) "Linux\n"
  | "uniq" => unique state arguments
  | "wc" => count state arguments
  | "whoami" => emitText (state.withStatus 0) "root\n"
  | "yes" => repeatWords state arguments
  | _ => state.withStatus 0

end CaseHarness.Shell.Utility
