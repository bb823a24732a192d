import CaseHarness.Shell.Utility.Folder

/-!
# Copying, moving and linking

The utilities that put files at other places, those that change modes, and those
that take paths apart or follow them.
-/

namespace CaseHarness.Shell.Utility

/-- What stands below a location, moved to another one. -/
def nodesBelow (tree : Tree) (source target : Location) : List (Location × Node) :=
  tree.nodes.filterMap fun entry =>
    if source.isPrefixOf entry.1 then some (target ++ entry.1.drop source.length, entry.2) else none

def insideOf (folder source : String) : String :=
  Path.append folder ((Path.names source).getLast?.getD source)

/-- The sources, the last operand, and whether it is a folder that the sources are put into. -/
structure Destination where
  sources : List String
  target : String
  isFolder : Bool

/-- Where the operands of a utility lead, or the state in which their fault was reported. -/
def destinationOf (state : State) (operands : List String) : Except State Destination :=
  match operands with
  | [] => .error (misuse state "missing file operand" 1)
  | [only] =>
      .error (misuse state ("missing destination file operand after " ++ inQuotes only) 1)
  | first :: second :: others =>
      let target := ((second :: others).getLast?).getD second
      let isInto := isFolder state target
      if others ≠ [] && !isInto then
        let reason :=
          match state.locateWith target .use with
          | .ok _ => FileError.notDirectory.reason
          | .error fault => fault.reason
        .error (report state ("target " ++ inQuotes target ++ ": " ++ reason) 1)
      else .ok ⟨first :: (second :: others).dropLast, target, isInto⟩

/-- The options of the utility that copies. -/
def copyOptions : OptionTable where
  letters := "adfilnpPrRsTuvLHx".toList.map fun letter => (letter, false)
  names := [("recursive", 'r'), ("force", 'f'), ("archive", 'a'), ("verbose", 'v'),
    ("no-clobber", 'n')]

/-- Copy one file or folder to a path. -/
def copyOne (options : Options) (state : State) (source target : String) : State :=
  let deep := options.has 'r' || options.has 'R' || options.has 'a'
  let tree := state.world.tree
  match state.locateWith source (if deep then .inspect else .use) with
  | .error fault => reportFile state "cannot stat" source fault.reason
  | .ok place =>
      let same := fun other : Location => place = other
      match tree.node? place with
      | some .folder =>
          if !deep then
            report state ("-r not specified; omitting directory " ++ inQuotes source) 1
          else
            match tree.arrive state.directory target .use with
            | .error fault => reportFile state "cannot create directory" target fault.reason
            | .ok (.present location) =>
                if tree.node? location ≠ some .folder then
                  report state ("cannot overwrite non-directory " ++ inQuotes target ++
                    " with directory " ++ inQuotes source) 1
                else if place.isPrefixOf location then
                  report state ("cannot copy a directory, " ++ inQuotes source ++
                    ", into itself, " ++ inQuotes target) 1
                else
                  state.setTree ((nodesBelow tree place location).foldl
                    (fun current entry =>
                      if entry.2 = .folder ∧ (current.node? entry.1).isSome then current
                      else current.put entry.1 entry.2) tree)
            | .ok (.vacant location) =>
                if place.isPrefixOf location then
                  report state ("cannot copy a directory, " ++ inQuotes source ++
                    ", into itself, " ++ inQuotes target) 1
                else
                  state.setTree ((nodesBelow tree place location).foldl
                    (fun current entry => current.put entry.1 entry.2) tree)
      | some node =>
          match tree.writable state.directory target with
          | .error .isDirectory =>
              report state ("cannot overwrite directory " ++ inQuotes target ++
                " with non-directory") 1
          | .error fault =>
              match state.locateWith target .use with
              | .error .tooManyLinks => reportFile state "cannot stat" target fault.reason
              | _ => reportFile state "cannot create regular file" target fault.reason
          | .ok location =>
              let isDangling :=
                match state.nodeAt? target .inspect, tree.node? location with
                | some (_, .link _), none => true
                | _, _ => false
              if same location then
                report state (inQuotes source ++ " and " ++ inQuotes target ++
                  " are the same file") 1
              else if isDangling then
                report state ("not writing through dangling symlink " ++ inQuotes target) 1
              else if options.has 'n' && (tree.node? location).isSome then state
              else
                match node with
                | .link _ => state.setTree (tree.put location node)
                | .file content executable =>
                    let kept := (tree.node? location).isSome
                    let filled := tree.fill location content
                    state.setTree
                      (if kept then filled else filled.put location (.file content executable))
                | .program _ => state.setTree (tree.put location node)
                | _ => state.setTree (tree.fill location (state.bytesAt place))
      | none => state

/-- Copy files and folders. -/
def copy (state : State) (arguments : List String) : State :=
  withOptions copyOptions 1 state arguments fun options =>
    match destinationOf state options.operands with
    | .error refused => refused
    | .ok destination =>
        destination.sources.foldl
          (fun current source =>
            copyOne options current source
              (if destination.isFolder then insideOf destination.target source
              else destination.target))
          (state.withStatus 0)

/-- Move one file or folder to a path. -/
def moveOne (state : State) (source target : String) : State :=
  let tree := state.world.tree
  match state.locateWith source .inspect with
  | .error fault => reportFile state "cannot stat" source fault.reason
  | .ok place =>
      let move := fun location : Location =>
        let moved := nodesBelow tree place location
        state.setTree (moved.foldl (fun current entry => current.put entry.1 entry.2)
          ((tree.removeAll place).removeAll location))
      match tree.arrive state.directory target .inspect with
      | .error fault =>
          report state ("cannot move " ++ inQuotes source ++ " to " ++ inQuotes target ++ ": " ++
            fault.reason) 1
      | .ok (.vacant location) =>
          if place.isPrefixOf location then
            report state ("cannot move " ++ inQuotes source ++ " to a subdirectory of itself, " ++
              inQuotes target) 1
          else move location
      | .ok (.present location) =>
          if location = place then
            report state (inQuotes source ++ " and " ++ inQuotes target ++ " are the same file") 1
          else
            match tree.node? place, tree.node? location with
            | some .folder, some .folder =>
                if tree.children location = [] then move location
                else
                  report state ("cannot move " ++ inQuotes source ++ " to " ++ inQuotes target ++
                    ": Directory not empty") 1
            | some .folder, _ =>
                report state ("cannot overwrite non-directory " ++ inQuotes target ++
                  " with directory " ++ inQuotes source) 1
            | _, some .folder =>
                report state ("cannot overwrite directory " ++ inQuotes target ++
                  " with non-directory") 1
            | _, _ => move location

/-- Move files and folders. -/
def move (state : State) (arguments : List String) : State :=
  withOptions ⟨"fintTuv".toList.map fun letter => (letter, false),
      [("force", 'f'), ("no-clobber", 'n'), ("verbose", 'v')]⟩ 1 state arguments fun options =>
    match destinationOf state options.operands with
    | .error refused => refused
    | .ok destination =>
        destination.sources.foldl
          (fun current source =>
            moveOne current source
              (if destination.isFolder then insideOf destination.target source
              else destination.target))
          (state.withStatus 0)

/-- Link one path to a target; a link of its own shares nothing with the target later on. -/
def linkOne (options : Options) (state : State) (target path : String) : State :=
  let soft := options.has 's'
  let failed := fun reason : String =>
    if soft then reportFile state "failed to create symbolic link" path reason
    else if reason = "File exists" then reportFile state "failed to create hard link" path reason
    else
      report state ("failed to create hard link " ++ inQuotes path ++ " => " ++ inQuotes target ++
        ": " ++ reason) 1
  let node : Except State Node :=
    if soft then .ok (.link target)
    else
      match state.nodeAt? target .inspect with
      | none => .error (reportFile state "failed to access" target FileError.notFound.reason)
      | some (_, .folder) =>
          .error (report state (target ++ ": hard link not allowed for directory") 1)
      | some (_, found) => .ok found
  match node with
  | .error refused => refused
  | .ok found =>
      match state.world.tree.arrive state.directory path .inspect with
      | .ok (.vacant location) => state.setTree (state.world.tree.put location found)
      | .ok (.present location) =>
          if options.has 'f' && state.world.tree.node? location ≠ some .folder then
            state.setTree (state.world.tree.put location found)
          else failed "File exists"
      | .error fault => failed fault.reason

def link (state : State) (arguments : List String) : State :=
  withOptions ⟨"fsnvirLPT".toList.map fun letter => (letter, false),
      [("symbolic", 's'), ("force", 'f'), ("no-dereference", 'n'), ("verbose", 'v')]⟩ 1 state
      arguments fun options =>
    match options.operands with
    | [] => misuse state "missing file operand" 1
    | [only] =>
        linkOne options (state.withStatus 0) only (insideOf "." only)
    | first :: second :: others =>
        let target := ((second :: others).getLast?).getD second
        let isLink :=
          match state.nodeAt? target .inspect with
          | some (_, .link _) => true
          | _ => false
        let isInto := isFolder state target && !(options.has 'n' && isLink) && !options.has 'T'
        if others ≠ [] && !isInto then
          let reason :=
            match state.locateWith target .use with
            | .ok _ => FileError.notDirectory.reason
            | .error fault => fault.reason
          report state ("target " ++ inQuotes target ++ ": " ++ reason) 1
        else
          (first :: (second :: others).dropLast).foldl
            (fun current source =>
              linkOne options current source (if isInto then insideOf target source else target))
            (state.withStatus 0)

/-! ### Modes -/

/-- Whether a mode makes a file executable that is so or not before; nothing if it is no mode. -/
def executableBy? (mode : String) (before : Bool) : Option Bool :=
  let characters := mode.toList
  if characters ≠ [] && characters.all fun digit => '0' ≤ digit && digit ≤ '7' then
    some ((characters.reverse.take 3).any fun digit => ['1', '3', '5', '7'].contains digit)
  else
    (Path.split ',' characters).foldl
      (fun known clause =>
        known.bind fun executable =>
          let who := clause.takeWhile fun letter => ['u', 'g', 'o', 'a'].contains letter
          match clause.drop who.length with
          | sign :: letters =>
              if !(['+', '-', '='].contains sign) ||
                  !(letters.all fun letter => ['r', 'w', 'x', 'X', 's', 't'].contains letter) then
                none
              else if letters.contains 'x' then some (sign ≠ '-')
              else if sign = '=' then some false
              else some executable
          | [] => none)
      (some before)

/-- Change the modes of files, as far as they say whether a file is executable. -/
def changeMode (state : State) (arguments : List String) : State :=
  let isMode := fun word : String =>
    match word.toList with
    | '-' :: letter :: _ => ['r', 'w', 'x', 'X', 's', 't'].contains letter
    | _ => false
  let given := arguments.filter fun word => isMode word || (word.toList.head? ≠ some '-')
  let options := arguments.filter fun word => !isMode word && word.toList.head? = some '-'
  match options.find? fun word => !(["-R", "-v", "-f", "-c", "--"].contains word) with
  | some word =>
      misuse state ("invalid option -- " ++ inQuotes (String.ofList (word.toList.drop 1))) 1
  | none =>
      match given with
      | [] => misuse state "missing operand" 1
      | [mode] => misuse state ("missing operand after " ++ inQuotes mode) 1
      | mode :: paths =>
          if (executableBy? mode false).isNone then
            misuse state ("invalid mode: " ++ inQuotes mode) 1
          else
            paths.foldl
              (fun (current : State) path =>
                match current.locateWith path .use with
                | .error fault => reportFile current "cannot access" path fault.reason
                | .ok location =>
                    match current.world.tree.node? location with
                    | some (.file content executable) =>
                        current.setTree (current.world.tree.put location
                          (.file content ((executableBy? mode executable).getD executable)))
                    | _ => current)
              (state.withStatus 0)

/-! ### Paths -/

/-- Write the current directory. -/
def pwd (state : State) (arguments : List String) : State :=
  withOptions ⟨[('L', false), ('P', false)],
      [("logical", 'L'), ("physical", 'P')]⟩ 1 state arguments
      fun options =>
    let warned :=
      if options.operands = [] then state
      else Origin.program.report state "ignoring non-option arguments"
    emitText (warned.withStatus 0) (Location.path state.directory ++ "\n")

/-- The last name of a path without a given ending, and the path of its folder. -/
def pathParts (path ending : String) : String × String :=
  let trimmed := (path.toList.reverse.dropWhile fun character => character = '/')
  let name := (trimmed.takeWhile fun character => character ≠ '/').reverse
  let before := ((trimmed.drop name.length).dropWhile fun character => character = '/').reverse
  let isRooted := Path.isAbsolute path
  let suffix := ending.toList
  let shortened :=
    if suffix ≠ [] ∧ suffix.isSuffixOf name ∧ suffix ≠ name then
      name.take (name.length - suffix.length)
    else name
  let shown := if name = [] then (if isRooted then ['/'] else []) else shortened
  let folder :=
    if before ≠ [] then before
    else if isRooted then ['/']
    else ['.']
  (String.ofList shown, String.ofList folder)

/-- Write the last names of paths. -/
def baseName (state : State) (arguments : List String) : State :=
  match Options.beforeOperands ⟨[('a', false), ('s', true), ('z', false)],
      [("multiple", 'a'), ("suffix", 's')]⟩ arguments with
  | .error fault => misuse state fault.text 1
  | .ok options =>
      let ending := (options.argument? 's').getD ""
      let shown := fun (paths : List String) (suffix : String) =>
        emitText (state.withStatus 0)
          (String.join (paths.map fun path => (pathParts path suffix).1 ++ "\n"))
      match options.operands with
      | [] => misuse state "missing operand" 1
      | paths =>
          if options.has 'a' || options.has 's' then shown paths ending
          else
            match paths with
            | [path] => shown [path] ""
            | [path, suffix] => shown [path] suffix
            | _ => misuse state ("extra operand " ++ inQuotes ((paths[2]?).getD "")) 1

/-- Write the folders of paths. -/
def folderNames (state : State) (arguments : List String) : State :=
  withOptions ⟨[('z', false)], []⟩ 1 state arguments fun options =>
    if options.operands = [] then misuse state "missing operand" 1
    else
      emitText (state.withStatus 0)
        (String.join (options.operands.map fun path => (pathParts path "").2 ++ "\n"))

/-- The path of the location that a path leads to, where the last name may be free with
`mayBeFree`. -/
def realPath (state : State) (mayBeFree : Bool) (path : String) : Except FileError String :=
  let trimmed := String.ofList
    (path.toList.reverse.dropWhile fun character => character = '/').reverse
  match state.world.tree.arrive state.directory (if trimmed = "" then path else trimmed) .use with
  | .error fault => .error fault
  | .ok (.present location) =>
      if Path.endsInSlash path && state.world.tree.node? location ≠ some .folder then
        .error .notDirectory
      else .ok location.path
  | .ok (.vacant location) => if mayBeFree then .ok location.path else .error .notFound

/-- Write where symbolic links lead to. -/
def readLink (state : State) (arguments : List String) : State :=
  withOptions ⟨"efmnqsvz".toList.map fun letter => (letter, false),
      [("canonicalize", 'f'), ("canonicalize-existing", 'e'),
          ("no-newline", 'n')]⟩ 1 state arguments
      fun options =>
    if options.operands = [] then misuse state "missing operand" 1
    else
      options.operands.foldl
        (fun (current : State) path =>
          let found : Except FileError String :=
            if options.has 'f' || options.has 'e' || options.has 'm' then
              realPath current (!options.has 'e') path
            else
              match current.nodeAt? path .inspect with
              | some (_, .link target) => .ok target
              | _ => .error .notFound
          match found with
          | .ok text =>
              emitText current
                (text ++ if options.has 'n' && options.operands.length = 1 then "" else "\n")
          | .error _ => current.withStatus 1)
        (state.withStatus 0)

/-- Write paths without symbolic links. -/
def realPaths (state : State) (arguments : List String) : State :=
  withOptions ⟨"emqsLPz".toList.map fun letter => (letter, false),
      [("canonicalize-existing", 'e'), ("quiet", 'q')]⟩ 1 state arguments fun options =>
    if options.operands = [] then misuse state "missing operand" 1
    else
      options.operands.foldl
        (fun (current : State) path =>
          match realPath current (!options.has 'e') path with
          | .ok text => emitText current (text ++ "\n")
          | .error fault =>
              if options.has 'q' then current.withStatus 1
              else report current (path ++ ": " ++ fault.reason) 1)
        (state.withStatus 0)

end CaseHarness.Shell.Utility
