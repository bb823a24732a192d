import CaseHarness.Shell.Builtin.Call

/-!
# The directory of the shell

The shell knows its directory by the path that led there, in which a double dot
cancels the name before it.  The physical path has no symbolic links.
-/

namespace CaseHarness.Shell.Builtin

/-- The names of a path from which a double dot removes the one before it. -/
def foldNames (reversed : List String) : List String → List String
  | [] => reversed.reverse
  | ".." :: rest => foldNames reversed.tail rest
  | name :: rest => foldNames (name :: reversed) rest

/-- The path that a directory is known by, seen from another such path. -/
def knownPathOf (start path : String) : String :=
  let names := fun given : String => foldNames [] (Path.names given)
  if Path.isAbsolute path then
    let root := if Path.rootOf path = "//" then "//" else "/"
    root ++ String.intercalate "/" (names path)
  else "/" ++ String.intercalate "/" (foldNames (names start).reverse (Path.names path))

def enter? (state : State) (isPhysical : Bool) (path : String) : Option State :=
  let known := if isPhysical then path else knownPathOf state.knownPath path
  match state.world.tree.locate state.directory known with
  | .error _ => none
  | .ok location =>
      if state.world.tree.node? location ≠ some .folder then none
      else
        let shown := if isPhysical then Location.path location else known
        let moved := ((state.assign "OLDPWD" state.knownPath).expose "OLDPWD").assign "PWD" shown
        some { moved.expose "PWD" with directory := location, knownPath := shown }

/-- Whether a path is looked up in no other folders. -/
def isDirect (path : String) : Bool :=
  match Path.split '/' path.toList with
  | [] => true
  | first :: _ => Path.isAbsolute path || first = ['.'] || first = ['.', '.']

def changeDirectory (state : State) (arguments : List String) : State :=
  withOptions [('L', false), ('P', false)] state arguments fun options =>
    let isPhysical : Bool := options.lastOf? ['L', 'P'] = some 'P'
    let given := options.operands.head?
    let isBack : Bool := given = some "-"
    let target :=
      match given with
      | none => (state.valueOf? "HOME").getD ""
      | some "-" => (state.valueOf? "OLDPWD").getD ""
      | some path => path
    let named := if target = "" then "." else target
    let folders :=
      if isDirect named then [""]
      else
        match state.valueOf? "CDPATH" with
        | none => [""]
        | some path => (Path.split ':' path.toList).map String.ofList
    let candidates := folders.map fun folder =>
      if folder = "" then (named, isBack) else (Path.append folder named, true)
    match (candidates ++ [(named, isBack)]).findSome? fun (path, isShown) =>
        (enter? state isPhysical path).map fun moved => (moved, isShown) with
    | some (moved, isShown) =>
        if isShown then emitText moved (moved.knownPath ++ "\n") else moved.withStatus 0
    | none => state.fail ("can't cd to " ++ target)

/-- Write the current directory. -/
def showDirectory (state : State) (arguments : List String) : State :=
  withOptions [('L', false), ('P', false)] state arguments fun options =>
    emitText state
      ((if options.lastOf? ['L', 'P'] = some 'P' then Location.path state.directory
        else state.knownPath) ++ "\n")

end CaseHarness.Shell.Builtin
