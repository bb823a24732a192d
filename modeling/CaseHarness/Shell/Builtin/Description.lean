import CaseHarness.Shell.Builtin.Call
import CaseHarness.Shell.Programs

/-!
# What names stand for

A name is a keyword, an alias, a function, a command of the shell or a program,
and is taken for the first of these that it is.
-/

namespace CaseHarness.Shell.Builtin

/-- The commands of the shell besides the special ones. -/
def usualNames : List String :=
  ["[", "alias", "bg", "cd", "chdir", "command", "echo", "false", "fg", "getopts", "hash", "jobs",
    "kill", "local", "printf", "pwd", "read", "test", "true", "type", "ulimit", "umask", "unalias",
    "wait"]

/-- Whether a name is that of a command of the shell. -/
def isKnown (name : String) : Bool :=
  Grammar.specialCommands.contains name || usualNames.contains name

/-- Whether an error in a command ends the shell. -/
def isSpecial (name : String) : Bool :=
  Grammar.specialCommands.contains name || name = "local"

/-- Whether the arguments of a command that look like assignments are not split. -/
def takesAssignments (name : String) : Bool :=
  ["alias", "export", "local", "readonly"].contains name

/-- Where a bare name is found along a search path. -/
def placeOf? (state : State) (path name : String) : Option String :=
  if name.isEmpty then none
  else if name.toList.contains '/' then
    if state.world.tree.names state.directory name then some name else none
  else
    ((Image.foldersOf path).map fun folder => Path.append folder name).find? fun candidate =>
      match state.world.tree.locate state.directory candidate with
      | .ok location =>
          match state.world.tree.node? location with
          | some (.file _ executable) => executable
          | some (.program _) => true
          | _ => false
      | .error _ => false

/-- Remember that a program has been looked up, if it is a bare name that is found. -/
def track (state : State) (path name : String) : State :=
  if name.toList.contains '/' || state.tracked.contains name ||
      (placeOf? state path name).isNone then
    state
  else { state with tracked := state.tracked ++ [name] }

/-- What a name stands for, in one word or as a sentence. -/
def description? (state : State) (verbose : Bool) (path name : String) : Option String :=
  let told := fun (sentence : String) => some (if verbose then name ++ sentence else name)
  if Grammar.keywords.contains name then told " is a shell keyword"
  else
    match state.aliases.lookup name, state.functions.lookup name with
    | some value, _ =>
        some (if verbose then name ++ " is an alias for " ++ value
          else "alias " ++ name ++ "=" ++ quotedValue value)
    | none, some _ => told " is a shell function"
    | none, none =>
        if isSpecial name then told " is a special shell builtin"
        else if usualNames.contains name then told " is a shell builtin"
        else
          (placeOf? state path name).map fun place =>
            if !verbose then place
            else if state.tracked.contains name then name ++ " is a tracked alias for " ++ place
            else name ++ " is " ++ place

/-- Whether a name is looked up among the programs. -/
def isProgramName (state : State) (name : String) : Bool :=
  !Grammar.keywords.contains name && (state.aliases.lookup name).isNone &&
    (state.functions.lookup name).isNone && !isKnown name

/-- Tell what names stand for; the status is zero if all stand for something. -/
def describe (state : State) (verbose : Bool) (path : String) (names : List String) : State :=
  names.foldl
    (fun (current : State) name =>
      match description? current verbose path name with
      | some sentence =>
          let told := Origin.shell.emit current (Text.Utf8.encode (sentence ++ "\n")) current.status
          if isProgramName current name then track told path name else told
      | none =>
          let told := if verbose then emitText current (name ++ ": not found\n") else current
          told.withStatus 127)
    (state.withStatus 0)

/-- Tell what a name stands for if options ask for it. -/
def describeCommand (state : State) (arguments : List String) : State :=
  withOptions [('p', false), ('v', false), ('V', false)] state arguments fun options =>
    let path := if options.has 'p' then Image.usualPath else (state.valueOf? "PATH").getD ""
    match options.operands with
    | name :: _ =>
        if options.has 'v' || options.has 'V' then describe state (options.has 'V') path [name]
        else state.withStatus 0
    | [] => state.withStatus 0

/-- Look up programs, or show those that have been looked up. -/
def hash (state : State) (arguments : List String) : State :=
  let path := (state.valueOf? "PATH").getD ""
  withOptions [('r', false)] (state.withStatus 0) arguments fun options =>
    if options.has 'r' then { state with tracked := [], status := 0 }
    else
      match options.operands with
      | [] =>
          let places := state.tracked.filterMap (placeOf? state path)
          emitText state (String.join (places.map fun place => place ++ "\n"))
      | names =>
          forEach (state.withStatus 0) names fun current name =>
            if !isProgramName current name then current
            else if (placeOf? current path name).isSome then track current path name
            else (current.complain (name ++ ": not found")).withStatus 1

end CaseHarness.Shell.Builtin
