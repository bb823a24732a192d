import CaseHarness.Files.Path
import CaseHarness.Text.Utf8

/-!
# File trees

A tree holds folders, files, symbolic links, devices and the programs that are
part of the system, each at a location.  A path is walked name by name; a
symbolic link sends the walk to its target, and a walk that meets too many links
fails, wherever on its way it meets them.  What happens at the last name depends
on the aim of the walk.
-/

namespace CaseHarness

/-- Why an operation on files, or the start of a program, fails. -/
inductive FileError where
  | notFound
  | permissionDenied
  | notExecutable
  | notDirectory
  | isDirectory
  | nameTooLong
  | tooManyLinks
  | noDevice
  | noSpace
  | badDescriptor
  | argumentsTooLong
  | notText
  | nulInPath
  | nulInArguments
  /-- A fault of another kind, given by its text. -/
  | other (text : String)
  deriving DecidableEq, Repr

/-- What an error says, without the number that the system gives it. -/
def FileError.reason : FileError → String
  | notFound => "No such file or directory"
  | permissionDenied => "Permission denied"
  | notExecutable => "Exec format error"
  | notDirectory => "Not a directory"
  | isDirectory => "Is a directory"
  | nameTooLong => "File name too long"
  | tooManyLinks => "Too many levels of symbolic links"
  | noDevice => "No such device or address"
  | noSpace => "No space left on device"
  | badDescriptor => "Bad file descriptor"
  | argumentsTooLong => "Argument list too long"
  | notText => "stream did not contain valid UTF-8"
  | nulInPath => "file name contained an unexpected NUL byte"
  | nulInArguments => "nul byte found in provided data"
  | other text => text

/-- The number that the system gives an error. -/
def FileError.number? : FileError → Option String
  | notFound => some "2"
  | permissionDenied => some "13"
  | notExecutable => some "8"
  | notDirectory => some "20"
  | isDirectory => some "21"
  | nameTooLong => some "36"
  | tooManyLinks => some "40"
  | noDevice => some "6"
  | noSpace => some "28"
  | badDescriptor => some "9"
  | argumentsTooLong => some "7"
  | notText | nulInPath | nulInArguments | other _ => none

def FileError.text (fault : FileError) : String :=
  match fault.number? with
  | some number => fault.reason ++ " (os error " ++ number ++ ")"
  | none => fault.reason

/-- A place in a tree: the names that lead to it from the root. -/
abbrev Location :=
  List String

def Location.path (location : Location) : String :=
  if location = [] then "/" else String.join (location.map fun name => "/" ++ name)

/-- A file that holds nothing of its own. -/
inductive Device where
  /-- Always empty; what is written is swallowed. -/
  | null
  /-- Refuses what is written. -/
  | full
  /-- Zero bytes without end. -/
  | zero
  /-- A terminal that is not there. -/
  | terminal
  /-- An open descriptor of the process that uses it, and what the harness finds there. -/
  | descriptor (number : Nat) (content : List UInt8)
  deriving DecidableEq, Repr

/-- How many of the bytes that have no end are ever handed out. -/
def Device.sampleLength : Nat :=
  1048576

/-- The bytes that are read from a device. -/
def Device.content : Device → Except FileError (List UInt8)
  | null => .ok []
  | full | zero => .ok (List.replicate sampleLength 0)
  | terminal => .error .noDevice
  | descriptor _ content => .ok content

/-- What stands at a location. -/
inductive Node where
  | folder
  | file (content : List UInt8) (executable : Bool)
  | link (target : String)
  /-- A program of the system, known by its name. -/
  | program (name : String)
  | device (device : Device)
  deriving DecidableEq, Repr

/-- A tree of files; the root itself is always a folder. -/
structure Tree where
  nodes : List (Location × Node) := []
  deriving DecidableEq, Repr

namespace Tree

def node? (tree : Tree) (location : Location) : Option Node :=
  if location = [] then some .folder
  else (tree.nodes.find? fun entry => entry.1 = location).map Prod.snd

def remove (tree : Tree) (location : Location) : Tree :=
  ⟨tree.nodes.filter fun entry => entry.1 ≠ location⟩

/-- Remove a location with everything below it. -/
def removeAll (tree : Tree) (location : Location) : Tree :=
  ⟨tree.nodes.filter fun entry => !location.isPrefixOf entry.1⟩

/-- Put a node at a location, in place of what stood there. -/
def put (tree : Tree) (location : Location) (node : Node) : Tree :=
  ⟨(tree.remove location).nodes ++ [(location, node)]⟩

/-- The names inside a folder. -/
def children (tree : Tree) (location : Location) : List String :=
  tree.nodes.filterMap fun entry =>
    match entry.1.getLast? with
    | some name => if entry.1 = location ++ [name] then some name else none
    | none => none

/-- The greatest number of symbolic links on one walk. -/
def maxLinks : Nat :=
  40

/-- The greatest number of bytes of a name. -/
def maxNameLength : Nat :=
  255

/-- The greatest number of bytes of a path. -/
def maxPathLength : Nat :=
  4095

/-- The names that a path asks a walk to visit, a dot for the folder reached so far
among them. -/
def pieces (path : String) : List String :=
  ((Path.split '/' path.toList).map String.ofList).filter fun name => name ≠ ""

/-- The names of a walk along a path.  A slash at the end adds the empty name, which asks
that the name before it be a folder, just as a dot does. -/
def steps (path : String) : List String :=
  if Path.endsInSlash path then pieces path ++ [""] else pieces path

/-- What a walk is for. -/
inductive Aim where
  /-- To use what is there, where a symbolic link at the end is followed. -/
  | use
  /-- To use what is there, a symbolic link at the end itself. -/
  | inspect
  /-- To create a file if there is none.  A last name with a slash behind it can only name
  a folder, and is refused before it is looked up. -/
  | create
  deriving DecidableEq, Repr

/-- Where a walk ends. -/
inductive Arrival where
  /-- At something that exists. -/
  | present (location : Location)
  /-- At a name that is free, in a folder that exists. -/
  | vacant (location : Location)
  deriving DecidableEq, Repr

/-- Walk from a location; `follow` goes on from the target of a symbolic link. -/
def walkWith (follow : Location → List String → Except FileError Arrival) (tree : Tree)
    (aim : Aim) : Location → List String → Except FileError Arrival
  | here, [] => .ok (.present here)
  | here, name :: rest =>
      match tree.node? here with
      | some .folder =>
          if name = "" ∨ name = "." then walkWith follow tree aim here rest
          else if name = ".." then walkWith follow tree aim here.dropLast rest
          else if aim = .create ∧ rest = [""] then .error .isDirectory
          else if maxNameLength < (Text.Utf8.encode name).length then .error .nameTooLong
          else
            match tree.node? (here ++ [name]) with
            | none => if rest = [] then .ok (.vacant (here ++ [name])) else .error .notFound
            | some (.link target) =>
                if rest = [] ∧ aim = .inspect then .ok (.present (here ++ [name]))
                else
                  follow (if Path.isAbsolute target then [] else here) (steps target ++ rest)
            | some _ => walkWith follow tree aim (here ++ [name]) rest
      | some _ | none => .error .notDirectory

/-- Walk from a location, following at most a given number of symbolic links in all. -/
def walk (tree : Tree) (aim : Aim) : Nat → Location → List String → Except FileError Arrival
  | 0 => walkWith (fun _ _ => .error .tooManyLinks) tree aim
  | links + 1 => walkWith (walk tree aim links) tree aim

/-- Why a path can name nothing, whatever the tree holds. -/
def pathFault? (path : String) : Option FileError :=
  if path.isEmpty then some .notFound
  else if path.toList.contains '\x00' then some .nulInPath
  else if maxPathLength < (Text.Utf8.encode path).length then some .nameTooLong
  else none

/-- Where the walk along a path begins. -/
def startOf (directory : Location) (path : String) : Location :=
  if Path.isAbsolute path then [] else directory

def arrive (tree : Tree) (directory : Location) (path : String) (aim : Aim := .use) :
    Except FileError Arrival :=
  match pathFault? path with
  | some fault => .error fault
  | none => walk tree aim maxLinks (startOf directory path) (steps path)

/-- The location of what a path names, all symbolic links followed. -/
def locate (tree : Tree) (directory : Location) (path : String) : Except FileError Location :=
  match tree.arrive directory path with
  | .ok (.present location) => .ok location
  | .ok (.vacant _) => .error .notFound
  | .error fault => .error fault

def names (tree : Tree) (directory : Location) (path : String) : Bool :=
  match tree.locate directory path with
  | .ok _ => true
  | .error _ => false

def namesFile (tree : Tree) (directory : Location) (path : String) : Bool :=
  match tree.locate directory path with
  | .ok location =>
      match tree.node? location with
      | some (.file ..) | some (.program _) => true
      | _ => false
  | .error _ => false

/-- The bytes of what stands at a location. -/
def contentAt (tree : Tree) (location : Location) : Except FileError (List UInt8) :=
  match tree.node? location with
  | some (.file content _) => .ok content
  | some (.program _) => .ok []
  | some (.device device) => device.content
  | some .folder => .error .isDirectory
  | some (.link _) | none => .error .notFound

/-- The bytes of the file that a path names. -/
def read (tree : Tree) (directory : Location) (path : String) : Except FileError (List UInt8) :=
  match tree.locate directory path with
  | .ok location => tree.contentAt location
  | .error fault => .error fault

def writable (tree : Tree) (directory : Location) (path : String) : Except FileError Location :=
  match tree.arrive directory path .create with
  | .error fault => .error fault
  | .ok (.vacant location) => .ok location
  | .ok (.present location) =>
      match tree.node? location with
      | some .folder => .error .isDirectory
      | some (.device .terminal) => .error .noDevice
      | some _ | none => .ok location

/-- Replace the content at a location, keeping whether the file is executable. -/
def fill (tree : Tree) (location : Location) (content : List UInt8) : Tree :=
  match tree.node? location with
  | some (.file _ executable) => tree.put location (.file content executable)
  | some (.device _) => tree
  | _ => tree.put location (.file content false)

/-- Write a file, in place of an earlier content. -/
def write (tree : Tree) (directory : Location) (path : String) (content : List UInt8) :
    Except FileError Tree :=
  match tree.writable directory path with
  | .error fault => .error fault
  | .ok location =>
      if tree.node? location = some (.device .full) ∧ content ≠ [] then .error .noSpace
      else .ok (tree.fill location content)

def makeFolders (tree : Tree) (location : Location) : Tree :=
  (List.range location.length).foldl
    (fun current depth =>
      let place := location.take (depth + 1)
      match current.node? place with
      | some _ => current
      | none => current.put place .folder)
    tree

@[simp]
theorem node?_root (tree : Tree) : tree.node? [] = some .folder := by
  simp [node?]

/-- What has been put at a location is found there. -/
theorem node?_put_self {tree : Tree} {location : Location} {node : Node}
    (inside : location ≠ []) : (tree.put location node).node? location = some node := by
  have gone : (tree.remove location).nodes.find? (fun entry => entry.1 = location) = none := by
    simp [remove]
  simp [put, node?, inside, List.find?_append, gone]

/-- Nothing else changes. -/
theorem node?_put_of_ne {tree : Tree} {location other : Location} {node : Node}
    (different : other ≠ location) : (tree.put location node).node? other = tree.node? other := by
  have unmoved : (tree.remove location).nodes.find? (fun entry => entry.1 = other) =
      tree.nodes.find? fun entry => entry.1 = other := by
    rw [remove, List.find?_filter]
    congr 1
    funext entry
    by_cases here : entry.1 = other
    · simp [here, different]
    · simp [here]
  have notHere : (location = other) = False := by simpa using different.symm
  simp [put, node?, List.find?_append, unmoved, notHere]

end Tree

end CaseHarness
