import CaseHarness.CommandLine.Answer
import CaseHarness.Console
import CaseHarness.FatalError
import CaseHarness.Process.Launch
import CaseHarness.Report

/-!
# Sessions

A session is what the harness sees and changes while it works: the files, the
language tag in force, and the record of what it has done so far.
-/

namespace CaseHarness

/-- Something that the harness does. -/
inductive Action where
  /-- It prints pieces on the standard output. -/
  | printed (pieces : List Console.Piece)
  /-- It answers a command line without a run. -/
  | answered (text : String)
  /-- It starts a program. -/
  | started (request : Request)
  /-- It writes a report to a path. -/
  | reported (path : String) (report : Report)
  /-- It gives up, while a language tag is in force. -/
  | gaveUp (fatal : FatalError) (tag : String)
  deriving DecidableEq, Repr

/-- What an action writes on the standard output. -/
def Action.output (colored : Bool) : Action → String
  | printed pieces => Console.text colored pieces
  | answered text => text
  | started _ | reported .. | gaveUp .. => ""

/-- What an action writes on the standard error output. -/
def Action.errors : Action → String
  | gaveUp fatal tag => fatal.report tag
  | printed _ | answered _ | started _ | reported .. => ""

/-- The harness at work. -/
structure Session where
  files : Tree
  /-- The directory in which the harness runs. -/
  directory : Location
  /-- The language tag in force. -/
  tag : String := Language.fallbackTag
  /-- What has been done, in order. -/
  actions : List Action := []
  deriving Repr

namespace Session

/-- Add an action to the record. -/
def perform (session : Session) (action : Action) : Session :=
  { session with actions := session.actions ++ [action] }

def print (session : Session) (pieces : List Console.Piece) : Session :=
  session.perform (.printed pieces)

/-- What has been written on the standard output. -/
def output (session : Session) (colored : Bool) : String :=
  String.join (session.actions.map (Action.output colored))

/-- What has been written on the standard error output. -/
def errors (session : Session) : String :=
  String.join (session.actions.map Action.errors)

end Session

end CaseHarness
