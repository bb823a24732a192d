import CaseHarness.Files.Tree

/-!
# Finding programs

A program is named by a path or, if the name has no slash, looked up in the
folders of the search path.  What is found is either a program of the system or
an executable file that begins by naming its interpreter.
-/

namespace CaseHarness.Shell

/-- A program that can be started: its name, and the arguments in front of those given. -/
structure Image where
  program : String
  arguments : List String := []
  /-- The name by which a file calls its interpreter, if a file is started. -/
  title : Option String := none
  deriving DecidableEq, Repr

namespace Image

/-- The search path that is in force at first. -/
def usualPath : String :=
  "/usr/local/sbin:/usr/local/bin:/usr/sbin:/usr/bin:/sbin:/bin"

/-- The search path of a program that has none. -/
def sparsePath : String :=
  "/bin:/usr/bin"

/-- The folders of a search path; an empty one is the present folder. -/
def foldersOf (path : String) : List String :=
  (Path.split ':' path.toList).map fun folder =>
    if folder = [] then "." else String.ofList folder

/-- How many bytes of a file the system looks at when it starts it. -/
def headerLength : Nat :=
  256

/-- Whether a byte is a blank of the line that names an interpreter. -/
def isBlank (byte : UInt8) : Bool :=
  byte = 0x20 || byte = 0x09

/-- Bytes without the blanks at their end. -/
def trimEnd (bytes : List UInt8) : List UInt8 :=
  (bytes.reverse.dropWhile isBlank).reverse

/-- The interpreter and at most one argument in a line that is complete. -/
def wordsOfLine? (line : List UInt8) : Option (List UInt8 × List (List UInt8)) :=
  let begun := (trimEnd line).dropWhile isBlank
  let name := begun.takeWhile fun byte => !isBlank byte
  match begun, begun.drop name.length with
  | [], _ => none
  | _, [] => some (name, [])
  | _, rest => some (name, [rest.dropWhile isBlank])

/-- The interpreter and at most one argument in a line that goes on behind the given bytes, or
ends in null bytes.  The name must be seen to end; the argument loses its last byte. -/
def wordsOfBeginning? (bytes : List UInt8) : Option (List UInt8 × List (List UInt8)) :=
  let begun := bytes.dropWhile isBlank
  let name := begun.takeWhile fun byte => !isBlank byte && byte ≠ 0
  match begun.drop name.length with
  | [] => none
  | 0 :: _ => some (name, [])
  | rest =>
      match (trimEnd rest.dropLast).dropWhile isBlank with
      | [] => some (name, [])
      | argument => some (name, [argument])

/-- The words with which a file names its interpreter. -/
def interpreter? (content : List UInt8) : Option (String × List String) :=
  let text := fun word : List UInt8 => Text.Utf8.decode (word.takeWhile fun byte => byte ≠ 0)
  match content.take headerLength with
  | 0x23 :: 0x21 :: rest =>
      let bytes := rest ++ List.replicate (headerLength - content.length) 0
      let line := bytes.takeWhile fun byte => byte ≠ 0x0A && byte ≠ 0
      let words :=
        if bytes[line.length]? = some 0x0A then wordsOfLine? line else wordsOfBeginning? bytes
      words.map fun (name, arguments) => (text name, arguments.map text)
  | _ => none

/-- What starts when a path is executed; interpreters may themselves be files, a few
levels deep. -/
def ofPath (tree : Tree) (directory : Location) : Nat → String → Except FileError Image
  | levels, path =>
      match tree.locate directory path with
      | .error fault => .error fault
      | .ok location =>
          match tree.node? location, levels with
          | some (.program _), 0 | some (.file _ true), 0 => .error .tooManyLinks
          | some (.program name), _ => .ok ⟨name, [], none⟩
          | some (.file content true), others + 1 =>
              match interpreter? content with
              | none => .error .notExecutable
              | some (interpreter, argument) =>
                  (ofPath tree directory others interpreter).map fun image =>
                    ⟨image.program, image.arguments ++ argument ++ [path],
                      image.title.or (some interpreter)⟩
          | some (.file _ false), _ | some .folder, _ | some (.device _), _ =>
              .error .permissionDenied
          | some (.link _), _ | none, _ => .error .notFound

/-- How many files may be started one for another before the system gives up. -/
def maxLevels : Nat :=
  6

/-- Try folders one after the other; a candidate that may not be executed is remembered. -/
def search (tree : Tree) (directory : Location) (name : String) (denied : Bool) :
    List String → Except FileError Image
  | [] => .error (if denied then .permissionDenied else .notFound)
  | folder :: folders =>
      match ofPath tree directory maxLevels (Path.append folder name) with
      | .ok image => .ok image
      | .error .permissionDenied => search tree directory name true folders
      | .error .notFound | .error .notDirectory => search tree directory name denied folders
      | .error fault => .error fault

/-- What starts when a program is named; a bare name is looked up along a search path. -/
def find (tree : Tree) (directory : Location) (path name : String) : Except FileError Image :=
  if name.isEmpty then .error .notFound
  else if name.toList.contains '\x00' then .error .nulInArguments
  else if name.toList.contains '/' then ofPath tree directory maxLevels name
  else search tree directory name false (foldersOf path)

end Image

end CaseHarness.Shell
