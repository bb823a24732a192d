import CaseHarness.CommandLine.Arguments
import CaseHarness.CommandLine.LanguageScan
import CaseHarness.Text.ControlSequence
import CaseHarness.Text.Lines

/-!
# Answers to a command line

A command line either asks for a run or is answered at once: with the help
page, with the version, or with what is wrong and how the harness is used.
-/

namespace CaseHarness.CommandLine

/-- The name of the harness on its command line. -/
def programName : String :=
  "tcf-runner"

def versionLine : String :=
  programName ++ " 0.1.0\n"

def ValueOption.shown : ValueOption → String
  | language => "--lang <LANGUAGE>"
  | config => "--config <CONFIG>"
  | timeout => "--timeout <SECS>"
  | report => "--report <REPORT>"

/-- Why a number of seconds was refused. -/
def reasonText : Text.Numeral.Fault → String
  | .empty => "cannot parse integer from empty string"
  | .invalidDigit => "invalid digit found in string"
  | .tooLarge => "number too large to fit in target type"

/-- What is wrong with a command line, in words.  A value is quoted as plain text. -/
def Fault.text : Fault → String
  | missingValue option =>
      "error: a value is required for '" ++ option.shown ++ "' but none was supplied"
  | invalidTimeout value reason =>
      "error: invalid value '" ++ Text.ControlSequence.strip value ++ "' for '" ++
        ValueOption.timeout.shown ++ "': " ++
        reasonText reason
  | repeatedOption option =>
      "error: the argument '" ++ option.shown ++ "' cannot be used multiple times"
  | repeatedVerbose => "error: the argument '--verbose' cannot be used multiple times"
  | unexpectedValue flag value =>
      "error: unexpected value '" ++ Text.ControlSequence.strip value ++ "' for '--" ++
        flag.name ++ "' found; no more were expected"

def firstLine (text : String) : String :=
  (Text.lines text).headD ""

def usageLine (tag : String) : String :=
  Message.usage.text tag ++ "\n"

/-- The styles of the help page. -/
inductive HelpStyle where
  /-- Bold and underlined, for what begins a section. -/
  | heading
  /-- Bold, for what is typed as it stands. -/
  | literal
  deriving DecidableEq, Repr

/-- The sequence that switches a style on. -/
def HelpStyle.opening : HelpStyle → String
  | heading => "\x1b[1m\x1b[4m"
  | literal => "\x1b[1m"

/-- A part of the help page in a style, if the page is styled. -/
def HelpStyle.mark (style : HelpStyle) (styled : Bool) (text : String) : String :=
  if styled then style.opening ++ text ++ "\x1b[0m" else text

def helpPage (styled : Bool) (tag : String) : String :=
  let heading := HelpStyle.heading.mark styled
  let literal := HelpStyle.literal.mark styled
  String.join
    [Message.about.text tag, "\n\n",
      heading "Usage:", " tcf-runner [OPTIONS] <program> [program-args...] <TCF>\n\n",
      heading "Arguments:", "\n",
      "  [ARGS]...  ", Message.invocationHelp.text tag, "\n\n",
      heading "Options:", "\n",
      "      ", literal "--lang", " <LANGUAGE>  ", Message.languageHelp.text tag, "\n",
      "  ", literal "-c", ", ", literal "--config", " <CONFIG>  ",
      Message.configHelp.text tag, "\n",
      "  ", literal "-t", ", ", literal "--timeout", " <SECS>   ",
      Message.timeoutHelp.text tag, "\n",
      "      ", literal "--report", " <REPORT>  ", Message.reportHelp.text tag, "\n",
      "  ", literal "-v", ", ", literal "--verbose", "          ",
      Message.verboseHelp.text tag, "\n",
      "  ", literal "-h", ", ", literal "--help", "             Print help\n",
      "  ", literal "-V", ", ", literal "--version", "          Print version\n"]

/-- What a command line leads to. -/
inductive Answer where
  /-- A run with these arguments. -/
  | run (arguments : Arguments)
  /-- This text and this exit status, without a run. -/
  | exit (status : Nat) (text : String)
  deriving DecidableEq, Repr

/-- Answer a command line, whose first word is the name of the program.  A run needs
at least a program and a test case. -/
def answer (environment : Environment) (words : List String) : Answer :=
  let tag := answerTag environment words
  match read words with
  | .ok arguments =>
      if arguments.invocation.length < 2 then .exit 1 (usageLine tag) else .run arguments
  | .error .help => .exit 0 (helpPage environment.stylesHelp tag)
  | .error .version => .exit 0 versionLine
  | .error (.fault fault) => .exit 1 (firstLine fault.text ++ "\n" ++ usageLine tag)

/-- A run is asked for exactly if the words can be read and name a program and a test case. -/
theorem answer_eq_run_iff {environment : Environment} {words : List String}
    {arguments : Arguments} :
    answer environment words = .run arguments ↔
      read words = .ok arguments ∧ 2 ≤ arguments.invocation.length := by
  unfold answer
  split
  · next readEq =>
    rw [readEq]
    split
    · next short =>
      simp only [reduceCtorEq, Except.ok.injEq, false_iff, not_and]
      rintro rfl
      omega
    · next long =>
      simp only [Answer.run.injEq, Except.ok.injEq, iff_self_and]
      rintro rfl
      omega
  all_goals simp_all

theorem invocation_ne_nil {environment : Environment} {words : List String}
    {arguments : Arguments} (asked : answer environment words = .run arguments) :
    arguments.invocation ≠ [] := by
  have long := (answer_eq_run_iff.mp asked).2
  intro empty
  simp [empty] at long

end CaseHarness.CommandLine
