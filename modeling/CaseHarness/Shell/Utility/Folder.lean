import CaseHarness.Shell.Utility.Condition

/-!
# Listing, making and removing

The utilities that list what is in folders, and those that make and remove files
and folders.
-/

namespace CaseHarness.Shell

/-- The location that a path names, whether the last link is followed or not. -/
def State.locateWith (state : State) (path : String) (aim : Tree.Aim) : Except FileError Location :=
  match state.world.tree.arrive state.directory path aim with
  | .ok (.present location) => .ok location
  | .ok (.vacant _) => .error .notFound
  | .error fault => .error fault

namespace Utility

def sortedNames (names : List String) : List String :=
  names.mergeSort fun first second => first < second || first = second

def isFolder (state : State) (path : String) : Bool :=
  match state.nodeAt? path .use with
  | some (_, .folder) => true
  | _ => false

/-! ### Listing -/

def listOptions : OptionTable where
  letters := ("1aAdrRFpQLHlCxmtSUsihgnokqNbBcfGuvXZ".toList.map fun letter => (letter, false)) ++
    [('w', true), ('I', true)]
  names := [("all", 'a'), ("almost-all", 'A'), ("directory", 'd'), ("reverse", 'r'),
    ("recursive", 'R'), ("classify", 'F'), ("quote-name", 'Q'), ("dereference", 'L')]

/-- The mark behind a name that tells what it names. -/
def classMark (options : Options) (node : Option Node) : String :=
  match node with
  | some .folder => if options.has 'F' || options.has 'p' then "/" else ""
  | some (.link _) => if options.has 'F' then "@" else ""
  | some (.file _ true) | some (.program _) => if options.has 'F' then "*" else ""
  | _ => ""

def listedName (options : Options) (name mark : String) : String :=
  (if options.has 'Q' then "\"" ++ name ++ "\"" else name) ++ mark

/-- The names inside a folder that are listed. -/
def listedIn (options : Options) (tree : Tree) (location : Location) : List String :=
  let inside := sortedNames (tree.children location)
  let shown :=
    if options.has 'a' || options.has 'f' then sortedNames ("." :: ".." :: inside)
    else inside.filter fun name => options.has 'A' || name.toList.head? ≠ some '.'
  if options.has 'r' then shown.reverse else shown

/-- Names on lines of their own, or with a comma between each two. -/
def listedLines (options : Options) (names : List String) : String :=
  if options.has 'm' && names ≠ [] then String.intercalate ", " names ++ "\n"
  else String.join (names.map fun name => name ++ "\n")

/-- What is listed of a folder and, if this is asked for, of the folders below it: for each one its
path and its lines. -/
def listedFolders (options : Options) (tree : Tree) :
    Nat → String → Location → List (String × String)
  | 0, _, _ => []
  | levels + 1, path, location =>
      let names := listedIn options tree location
      let lines := listedLines options (names.map fun name =>
        listedName options name (classMark options (tree.node? (location ++ [name]))))
      let below :=
        if options.has 'R' then
          (names.filter fun name =>
            name ≠ "." && name ≠ ".." && tree.node? (location ++ [name]) = some .folder).flatMap
            fun name =>
              listedFolders options tree levels (Path.append path name) (location ++ [name])
        else []
      (path, lines) :: below

/-- List files, then what is in folders; several folders get headings. -/
def list (state : State) (arguments : List String) : State :=
  withOptions listOptions 2 state arguments fun options =>
    let paths := if options.operands = [] then ["."] else options.operands
    let entryOf := fun path : String =>
      if options.has 'L' || options.has 'H' then state.locateWith path .use
      else
        match state.locateWith path .use with
        | .ok location => .ok location
        | .error fault =>
            match state.locateWith path .inspect with
            | .ok location => .ok location
            | .error _ => .error fault
    let complained := paths.foldl
      (fun (current : State) path =>
        match entryOf path with
        | .ok _ => current
        | .error fault =>
            report current ("cannot access " ++ inQuotes path ++ ": " ++ fault.reason) 2)
      (state.withStatus 0)
    let present := (sortedNames (paths.filter fun path => (entryOf path).isOk))
    let ordered := if options.has 'r' then present.reverse else present
    let isListed := fun path : String => isFolder state path && !options.has 'd'
    let files := ordered.filter fun path => !isListed path
    let folders := ordered.filter isListed
    let fileLines := listedLines options (files.map fun path =>
      let node :=
        match state.locateWith path .inspect with
        | .ok location => state.world.tree.node? location
        | .error _ => none
      listedName options path (classMark options node))
    let blocks := folders.flatMap fun path =>
      match state.locateWith path .use with
      | .ok location => listedFolders options state.world.tree 64 path location
      | .error _ => []
    let isAlone := paths.length < 2 && !options.has 'R'
    let shown := blocks.map fun (path, lines) =>
      if isAlone then lines else path ++ ":\n" ++ lines
    let parts := if files = [] then shown else fileLines :: shown
    emitText complained (String.intercalate "\n" parts)

/-! ### Making -/

/-- Report a file that cannot be used, with what was to be done. -/
def reportFile (state : State) (action path reason : String) : State :=
  report state (action ++ " " ++ inQuotes path ++ ": " ++ reason) 1

/-- Create the files that do not exist. -/
def touch (state : State) (arguments : List String) : State :=
  withOptions ⟨[('a', false), ('c', false), ('m', false), ('h', false), ('f', false), ('d', true),
      ('r', true), ('t', true)], [("no-create", 'c'), ("date", 'd'), ("reference", 'r')]⟩ 1 state
      arguments fun options =>
    if options.operands = [] then misuse state "missing file operand" 1
    else
      options.operands.foldl
        (fun (current : State) path =>
          if isFolder current path then current
          else
            match current.world.tree.writable current.directory path with
            | .ok location =>
                if (current.world.tree.node? location).isSome || options.has 'c' then current
                else current.setTree (current.world.tree.put location (.file [] false))
            | .error .isDirectory =>
                reportFile current "setting times of" path FileError.notFound.reason
            | .error fault =>
                if options.has 'c' && fault = .notFound then current
                else reportFile current "cannot touch" path fault.reason)
        (state.withStatus 0)

/-- Make the folders along a path that are missing. -/
def makeAlong (state : State) (told : Bool) (path : String) : State :=
  let start := if Path.isAbsolute path then "/" else ""
  let walked := (Path.names path).foldl
    (fun (current : State × String × Bool) name =>
      let (before, passed, failed) := current
      let here := if passed = "" ∨ passed = "/" then passed ++ name else passed ++ "/" ++ name
      if failed then current
      else
        match before.world.tree.arrive before.directory here .use with
        | .ok (.present location) =>
            if before.world.tree.node? location = some .folder then (before, here, false)
            else
              let reason :=
                if here = path then "File exists" else FileError.notDirectory.reason
              (reportFile before "cannot create directory" here reason, here, true)
        | .ok (.vacant location) =>
            let made := before.setTree (before.world.tree.put location .folder)
            let line := made.name ++ ": created directory " ++ inQuotes here ++ "\n"
            (if told then emitText made line else made, here, false)
        | .error fault =>
            (reportFile before "cannot create directory" here fault.reason, here, true))
    (state, start, false)
  walked.1

/-- Make folders, and with `-p` those above them. -/
def makeFolder (state : State) (arguments : List String) : State :=
  withOptions ⟨[('p', false), ('v', false), ('m', true)],
      [("parents", 'p'), ("verbose", 'v'), ("mode", 'm')]⟩ 1 state arguments fun options =>
    if options.operands = [] then misuse state "missing operand" 1
    else
      options.operands.foldl
        (fun (current : State) path =>
          if options.has 'p' then makeAlong current (options.has 'v') path
          else
            let trimmed := String.ofList
              (path.toList.reverse.dropWhile fun character => character = '/').reverse
            match current.world.tree.arrive current.directory
                (if trimmed = "" then path else trimmed) .inspect with
            | .ok (.vacant location) =>
                let made := current.setTree (current.world.tree.put location .folder)
                if options.has 'v' then
                  emitText made (made.name ++ ": created directory " ++ inQuotes path ++ "\n")
                else made
            | .ok (.present _) => reportFile current "cannot create directory" path "File exists"
            | .error fault => reportFile current "cannot create directory" path fault.reason)
        (state.withStatus 0)

/-! ### Removing -/

def removeOptions : OptionTable where
  letters := "dfirRvI".toList.map fun letter => (letter, false)
  names := [("force", 'f'), ("recursive", 'r'), ("dir", 'd'), ("verbose", 'v')]

/-- Remove one file, or a folder if this is asked for. -/
def removeOne (options : Options) (state : State) (path : String) : State :=
  let deep := options.has 'r' || options.has 'R'
  let refuse := fun reason : String => reportFile state "cannot remove" path reason
  match state.locateWith path .inspect with
  | .error fault =>
      if options.has 'f' && (fault = .notFound || fault = .notDirectory) then state
      else refuse fault.reason
  | .ok location =>
      let tree := state.world.tree
      let last := ((Path.split '/' path.toList).filter fun name => name ≠ []).getLast?
      if tree.node? location = some .folder then
        if !deep && !options.has 'd' then refuse FileError.isDirectory.reason
        else if location = [] then
          report (report state "it is dangerous to operate recursively on '/'" 1)
            "use --no-preserve-root to override this failsafe" 1
        else if last = some ['.'] ∨ last = some ['.', '.'] then
          report state ("refusing to remove '.' or '..' directory: skipping " ++ inQuotes path) 1
        else if !deep && tree.children location ≠ [] then refuse "Directory not empty"
        else
          let removed := state.setTree (tree.removeAll location)
          if options.has 'v' then
            emitText removed ("removed directory " ++ inQuotes path ++ "\n") else removed
      else
        let removed := state.setTree (tree.removeAll location)
        if options.has 'v' then emitText removed ("removed " ++ inQuotes path ++ "\n") else removed

/-- Remove files, and with `-r` folders with all they hold. -/
def remove (state : State) (arguments : List String) : State :=
  withOptions removeOptions 1 state arguments fun options =>
    if options.operands = [] then
      if options.has 'f' then state.withStatus 0 else misuse state "missing operand" 1
    else options.operands.foldl (removeOne options) (state.withStatus 0)

def removeFolder (state : State) (arguments : List String) : State :=
  withOptions ⟨[('p', false), ('v', false)], [("parents", 'p'), ("verbose", 'v')]⟩ 1 state arguments
      fun options =>
    if options.operands = [] then misuse state "missing operand" 1
    else
      options.operands.foldl
        (fun (current : State) path =>
          let refuse := fun reason : String => reportFile current "failed to remove" path reason
          match current.locateWith path .inspect with
          | .error fault => refuse fault.reason
          | .ok location =>
              if current.world.tree.node? location ≠ some .folder then
                refuse FileError.notDirectory.reason
              else if current.world.tree.children location ≠ [] then refuse "Directory not empty"
              else current.setTree (current.world.tree.removeAll location))
        (state.withStatus 0)

end Utility

end CaseHarness.Shell
