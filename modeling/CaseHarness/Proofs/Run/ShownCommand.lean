import CaseHarness.Proofs.Run.Stages
import CaseHarness.Proofs.Text.ShellWords

/-!
# The command that is shown is the command that runs

The command line in the header of a run, the list of words in its report and the words that
the program receives come from one list: the words of the command and the name of the test
case.  Who splits the command line as a shell does gets this list back.
-/

namespace CaseHarness

/-- At most one program is started, and it receives all words behind the first, which is
resolved. -/
theorem actions_runTarget (launch : Launcher) (case : TestCase) (command : List String)
    (limit : Option Duration) (session : Session) :
    (runTarget launch case command limit session).1.actions = session.actions ∨
      ∃ program request,
        (runTarget launch case command limit session).1.actions =
          session.actions ++ [.started request] ∧
        case.arguments command = program :: request.arguments ∧
        resolveProgram session.files session.directory program = .ok request.program := by
  rcases runTarget_cases launch case command limit session with ⟨fatal, -, fails⟩ |
    ⟨request, launched, spawns⟩
  · rw [fails]
    exact Or.inl rfl
  · obtain ⟨shown, -, started⟩ := runTarget_of_spawns spawns
    obtain ⟨program, headEq, resolved⟩ := spawns.resolved
    refine Or.inr ⟨program, request, by rw [started]; rfl, ?_, resolved⟩
    rw [spawns.words]
    cases command with
    | nil => cases headEq
    | cons first others =>
        cases headEq
        rfl

/-- A command line without NUL characters is split into the words of the command and the name
of the test case, so no other words have this command line.  The report lists the same words,
and the program receives them, the first one resolved. -/
theorem commandLine_splits_into_arguments (case : TestCase) (command : List String)
    (clean : ∀ word ∈ case.arguments command, '\x00' ∉ word.toList) :
    Text.ShellWords.split? (Text.Quoted.commandLine (case.arguments command)) =
        some (case.arguments command) ∧
      (∀ words : List String, (∀ word ∈ words, '\x00' ∉ word.toList) →
        Text.Quoted.commandLine words = Text.Quoted.commandLine (case.arguments command) →
        words = case.arguments command) ∧
      (∀ expectations execution outcome,
        (Report.ofRun case command expectations execution outcome).command =
          case.arguments command) ∧
      ∀ launch limit session,
        (runTarget launch case command limit session).1.actions = session.actions ∨
          ∃ program request,
            (runTarget launch case command limit session).1.actions =
              session.actions ++ [.started request] ∧
            case.arguments command = program :: request.arguments ∧
            resolveProgram session.files session.directory program = .ok request.program := by
  have split := Text.ShellWords.split?_commandLine clean
  refine ⟨split, ?_, fun _ _ _ => rfl, fun launch => actions_runTarget launch case command⟩
  intro words cleanWords sameLine
  have splitWords := Text.ShellWords.split?_commandLine cleanWords
  rw [sameLine, split] at splitWords
  exact (Option.some.inj splitWords).symm

/-- Quotes of both kinds, a caret, an exclamation mark, a dollar and a backslash in one word, a
line break, a word without characters and one that is not ASCII. -/
theorem commandLine_splits_mixed_words :
    let case : TestCase := ⟨"/work", "a b.tcf", []⟩
    let command := ["sh", "'^\"!$\\\x60", "a\nb", "", "é"]
    Text.Quoted.commandLine (case.arguments command) =
        "sh \"'\"'^\"!$'\"\\\\\"'\x60' 'a\nb' '' 'é' 'a b.tcf'" ∧
      Text.ShellWords.split? (Text.Quoted.commandLine (case.arguments command)) =
        some ["sh", "'^\"!$\\\x60", "a\nb", "", "é", "a b.tcf"] := by
  intro case command
  refine ⟨by decide, ?_⟩
  exact (commandLine_splits_into_arguments case command (by decide)).1

end CaseHarness
