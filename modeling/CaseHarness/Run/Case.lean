import CaseHarness.FatalError
import CaseHarness.TestCase

/-!
# Loading test cases

A test case is found by the path of a regular file.  Whatever the spelling of
that path, the case keeps the directory in which the file really stands, free of
symbolic links, and the name it has there.
-/

namespace CaseHarness.TestCase

/-- The directory and the base name of the file that a path names. -/
def locate (files : Tree) (directory : Location) (path : String) :
    Except FatalError (String × String) :=
  if files.namesFile directory path then
    match files.locate directory path with
    | .error _ => .error (.caseDirectoryUnresolved path)
    | .ok location =>
        match location.getLast? with
        | none => .error (.caseDirectoryUnresolved path)
        | some name => .ok (Location.path location.dropLast, name)
  else .error (.caseNotFound path)

def load (files : Tree) (directory : Location) (path : String) : Except FatalError TestCase :=
  match locate files directory path with
  | .error fatal => .error fatal
  | .ok (folder, name) =>
      match files.read directory (joinPath folder name) with
      | .error cause => .error (.caseUnreadable path cause)
      | .ok content => .ok (ofSource folder name (Text.Utf8.decode content))

end CaseHarness.TestCase
