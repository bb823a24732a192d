/-!
# Shell scripts

The programs under test are often small shell scripts.  A script is a list of
commands; the words of a command are made of parts that are expanded when the
command runs.
-/

namespace CaseHarness.Shell

/-- Where a redirection leads. -/
inductive Direction where
  /-- Read from a file. -/
  | read
  /-- Write to a file that is emptied first; with `forced` even if no file may be emptied. -/
  | write (forced : Bool)
  /-- Write behind what is in a file. -/
  | append
  /-- Read from a file and write to it. -/
  | both
  /-- Share another descriptor, or close this one. -/
  | share
  /-- Read the text of the redirection itself. -/
  | inline
  deriving DecidableEq, Repr

/-- How two commands are joined. -/
inductive Connective where
  | andThen
  | orElse
  deriving DecidableEq, Repr

/-- What becomes of the value of a parameter, with a word of its own. -/
inductive Change where
  /-- The word stands in for a missing value. -/
  | substitute
  /-- The word stands in for a missing value and is assigned. -/
  | assign
  /-- A missing value is an error, explained by the word. -/
  | demand
  /-- The word stands in for a value that is there. -/
  | replace
  /-- The shortest or longest matching beginning is removed. -/
  | dropFront (longest : Bool)
  /-- The shortest or longest matching end is removed. -/
  | dropBack (longest : Bool)
  deriving DecidableEq, Repr

mutual

/-- A part of a word; parts between quotes are never split or matched against names. -/
inductive Part where
  | text (characters : List Char) (quoted : Bool)
  | parameter (name : String) (quoted : Bool)
  | length (name : String) (quoted : Bool)
  /-- A changed parameter; `orEmpty` says that an empty value counts as missing. -/
  | changed (name : String) (change : Change) (orEmpty : Bool) (word : List Part)
      (quoted : Bool)
  /-- A change that does not exist, which fails when it is expanded. -/
  | malformed
  /-- The output of a script. -/
  | output (script : List (Command × Bool)) (quoted : Bool)
  | arithmetic (expression : List Part) (quoted : Bool)

/-- A redirection of a descriptor. -/
inductive Redirection where
  | mk (descriptor : Nat) (direction : Direction) (target : List Part)

/-- A command.  In a list of commands each one is marked if it runs in the background; a command
whose faults are reported knows its line. -/
inductive Command where
  | simple (line : Nat) (assignments : List (String × List Part)) (words : List (List Part))
      (redirections : List Redirection)
  | pipeline (stages : List Command)
  | negated (body : Command)
  | joined (first : Command) (connective : Connective) (second : Command)
  | redirected (line : Nat) (body : Command) (redirections : List Redirection)
  | group (body : List (Command × Bool))
  | subshell (line : Nat) (body : List (Command × Bool))
  | branch (condition yes no : List (Command × Bool))
  | loop (untilTrue : Bool) (condition body : List (Command × Bool))
  | each (line : Nat) (name : String) (words : Option (List (List Part)))
      (body : List (Command × Bool))
  | cases (line : Nat) (subject : List Part)
      (clauses : List (List (List Part) × List (Command × Bool)))
  | define (name : String) (body : Command)

end

abbrev Word :=
  List Part

/-- A list of commands. -/
abbrev Script :=
  List (Command × Bool)

end CaseHarness.Shell
