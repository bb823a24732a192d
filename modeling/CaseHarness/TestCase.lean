import CaseHarness.Text.Lines

/-!
# Test cases

A test case is a file of lines in a directory.  The program under test runs in
that directory and receives the file's base name.
-/

namespace CaseHarness

/-- A test-case file that has been read. -/
structure TestCase where
  /-- The directory that holds the file, as a path. -/
  directory : String
  /-- The base name of the file. -/
  name : String
  /-- The lines of the file, in order. -/
  lines : List String
  deriving DecidableEq, Repr

namespace TestCase

def ofSource (directory name source : String) : TestCase where
  directory := directory
  name := name
  lines := Text.lines source

/-- A path inside a directory; a name that is itself an absolute path stands alone,
and the directory is followed by a slash unless it is empty or ends in one. -/
def joinPath (directory name : String) : String :=
  if name.toList.head? = some '/' then name
  else if directory.isEmpty || directory.toList.getLast? = some '/' then directory ++ name
  else directory ++ "/" ++ name

def path (case : TestCase) : String :=
  joinPath case.directory case.name

/-- The words handed to the program: the command, then the base name of the case. -/
def arguments (case : TestCase) (command : List String) : List String :=
  command ++ [case.name]

end TestCase

end CaseHarness
