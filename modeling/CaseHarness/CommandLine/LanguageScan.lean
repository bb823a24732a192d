import CaseHarness.Language
import CaseHarness.Text.Search

/-!
# The language of the command line

The language in which faults of the command line are explained has to be known
before the command line is read.  A quick look at the words before the program
finds the value of `--lang`: the other options that are known to take the next
word as their value are passed together with it, and the look ends at the first
word that does not begin with a hyphen.
-/

namespace CaseHarness.CommandLine

/-- The spellings whose value is the next word. -/
def passedWithValue : List String :=
  ["-c", "--config", "-t", "--timeout", "--report"]

/-- The first language asked for among words that follow the name of the program. -/
def scanLanguage? : List String → Option String
  | [] => none
  | word :: rest =>
      match Text.after? "--lang=".toList word.toList with
      | some tag => some (String.ofList tag)
      | none =>
          if word = "--lang" then rest.head?
          else if word ∈ passedWithValue then
            match rest with
            | [] => none
            | _ :: others => scanLanguage? others
          else if word.toList.head? = some '-' then scanLanguage? rest
          else none

/-- The tag of the language in which a command line is answered. -/
def answerTag (environment : Environment) (words : List String) : String :=
  match scanLanguage? words.tail with
  | some requested => Language.resolve requested
  | none => environment.detect

end CaseHarness.CommandLine
