import CaseHarness.Language
import CaseHarness.Verification

/-!
# Console output

What the harness prints is a list of pieces: the header of a verbose run, the
captured output of the program, the failures and the summary.  Lines of the
harness may be styled; the captured output never is.
-/

namespace CaseHarness

def Failure.toMessage : Failure → Message
  | checkNotFound line pattern => .checkNotFound line pattern
  | nonZeroExit actual => .nonZeroExit actual
  | exitCodeMismatch actual expected => .exitMismatch actual expected
  | unexpectedSuccess => .unexpectedSuccess
  | timedOut milliseconds => .timedOut (Text.Decimal.secondsOfMilliseconds milliseconds)

/-- The line that reports a failure while a language tag is in force. -/
def Failure.text (failure : Failure) (tag : String) : String :=
  failure.toMessage.text tag

namespace Console

/-- The styles of lines of the harness. -/
inductive Style where
  | dimmed
  | red
  | greenBold
  | redBold
  deriving DecidableEq, Repr

/-- The sequence that switches a style on. -/
def Style.opening : Style → List Char
  | dimmed => "\x1b[2m".toList
  | red => "\x1b[31m".toList
  | greenBold => "\x1b[1;32m".toList
  | redBold => "\x1b[1;31m".toList

/-- The sequence that switches every style off. -/
def reset : List Char :=
  "\x1b[0m".toList

/-- Switch a style on again after each reset inside a text. -/
def reopen (opening : List Char) : List Char → List Char
  | [] => []
  | '\x1b' :: '[' :: '0' :: 'm' :: rest => reset ++ opening ++ reopen opening rest
  | character :: rest => character :: reopen opening rest

def paint (colored : Bool) (style : Style) (text : String) : String :=
  if colored then
    String.ofList (style.opening ++ reopen style.opening text.toList ++ reset)
  else text

/-- A piece of what is printed. -/
inductive Piece where
  /-- A line of the harness in a style, while a language tag is in force. -/
  | message (style : Style) (tag : String) (content : Message)
  /-- The captured output of the program. -/
  | output (output : String)
  | emptyLine
  deriving DecidableEq, Repr

/-- The captured output, with a newline added if its last line has none. -/
def echo (output : String) : String :=
  if output.isEmpty || output.toList.getLast? = some '\n' then output else output ++ "\n"

def Piece.text (colored : Bool) : Piece → String
  | message style tag content => paint colored style (content.text tag) ++ "\n"
  | output text => echo text
  | emptyLine => "\n"

/-- The text of pieces printed one after another. -/
def text (colored : Bool) (pieces : List Piece) : String :=
  String.join (pieces.map (Piece.text colored))

/-- The lines that a verbose run begins with. -/
def header (tag commandLine directory : String) (limit : Option Duration) : List Piece :=
  [.message .dimmed tag (.command commandLine),
    .message .dimmed tag (.workingDirectory directory)] ++
    limit.toList.map fun duration =>
      .message .dimmed tag
        (.timeLimit (Text.Decimal.secondsOfParts duration.seconds duration.nanoseconds))

/-- The line of a failure, followed by the whole output if the failure asks for it. -/
def failure (tag output : String) (failure : Failure) : List Piece :=
  .message .red tag failure.toMessage ::
    if failure.wantsOutput then [.emptyLine, .output output] else []

/-- The last line of a run. -/
def summary (tag name : String) (outcome : Outcome) : Piece :=
  if outcome.passed then .message .greenBold tag (.passed name)
  else .message .redBold tag (.failed name outcome.failures.length)

/-- The failures of an outcome and the summary. -/
def outcome (tag name output : String) (outcome : Outcome) : List Piece :=
  outcome.failures.flatMap (failure tag output) ++ [summary tag name outcome]

def reportNotice (tag path : String) : Piece :=
  .message .dimmed tag (.reportWritten path)

end Console

end CaseHarness
