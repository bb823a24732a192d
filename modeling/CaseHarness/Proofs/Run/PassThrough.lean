import CaseHarness.Proofs.CommandLine.Division
import CaseHarness.Proofs.Run.Course
import CaseHarness.Proofs.Run.OneLanguage

/-!
# What stands behind the options passes through

A command line that asks for a run is divided into its options and its invocation, and this
division alone decides what the harness does with its words.  The invocation has a program and
a test case, so nothing that the harness says about a command line without them is ever said
in a run.
-/

namespace CaseHarness.Harness

open CommandLine (Arguments Gives Boundary Choice answer)

variable {environment : Environment} {words : List String} {arguments : Arguments}

/-- A command line asks for a run exactly if it can be divided and its invocation has a program
and a test case. -/
theorem answer_eq_run_iff_divided :
    answer environment words = .run arguments ↔
      2 ≤ arguments.invocation.length ∧
        ∃ name pieces given separator,
          words = name :: (pieces.flatten ++ separator ++ arguments.invocation) ∧
          List.Forall₂ Gives pieces given ∧ Boundary separator arguments.invocation ∧
          given.flatten.Perm arguments.options.choices ∧
          ∀ choice ∈ given.flatten, choice.Acceptable := by
  rw [CommandLine.answer_eq_run_iff, CommandLine.read_eq_ok_iff, and_comm]
  refine and_congr_right fun long => ?_
  have invoked : arguments.invocation ≠ [] := by
    intro empty
    simp [empty] at long
  rw [CommandLine.accepts_iff_divided invoked]
  constructor
  · rintro ⟨pieces, given, separator, tailEq, divided⟩
    cases words with
    | nil => simp [invoked] at tailEq
    | cons name others =>
        rw [List.tail_cons] at tailEq
        exact ⟨name, pieces, given, separator, by rw [tailEq], divided⟩
  · rintro ⟨name, pieces, given, separator, rfl, divided⟩
    exact ⟨pieces, given, separator, rfl, divided⟩

theorem planOf_of_invocation {command : List String} {testCase : String}
    (invoked : arguments.invocation = command ++ [testCase]) (settings : Settings) (tag : String) :
    (planOf arguments settings tag).command = command ∧
      (planOf arguments settings tag).testCase = testCase := by
  simp [planOf, invoked]

theorem ne_emptyCommand_of_loadOptional {files : Tree} {directory : Location}
    {path : Option String} {fatal : FatalError}
    (fails : Settings.loadOptional files directory path = .error fatal) :
    fatal ≠ .emptyCommand := by
  rintro rfl
  cases path with
  | none => cases fails
  | some path =>
      simp only [Settings.loadOptional, Settings.load] at fails
      repeat' split at fails
      all_goals cases fails

/-- The action neither answers the command line nor gives up for want of a program. -/
def IsOfRun (action : Action) : Prop :=
  (∀ text, action ≠ .answered text) ∧ ∀ tag, action ≠ .gaveUp .emptyCommand tag

theorem isOfRun_gaveUp {fatal : FatalError} (differs : fatal ≠ .emptyCommand) (tag : String) :
    IsOfRun (.gaveUp fatal tag) :=
  ⟨nofun, fun _ same => differs (Action.gaveUp.inj same).1⟩

theorem isOfRun_of_course {plan : Plan} {launch : Launcher} {files after : Tree}
    {directory : Location} {actions : List Action} {result : Result Outcome}
    (course : plan.Course launch files directory actions after result) :
    ∀ action ∈ actions, IsOfRun action := by
  intro action mem
  rcases course.cases_of_mem mem with ⟨pieces, rfl⟩ | ⟨request, rfl⟩ | ⟨path, report, rfl⟩
  all_goals exact ⟨nofun, nofun⟩

/-- A run with a program neither tells the usage nor gives up for want of a program. -/
theorem runArguments_isOfRun {program testCase : String} {others : List String}
    {session : Session} (invoked : arguments.invocation = program :: others ++ [testCase])
    (silent : session.actions = []) (launch : Launcher) (environment : Environment) :
    ∀ action ∈ (runArguments launch environment arguments session).1.actions,
      IsOfRun action := by
  cases loads : Settings.loadOptional session.files session.directory arguments.options.config with
  | error fatal =>
      rw [runArguments_actions_of_error session launch loads silent]
      intro action mem
      rw [List.mem_singleton.mp mem]
      exact isOfRun_gaveUp (ne_emptyCommand_of_loadOptional loads) _
  | ok settings =>
      have nonempty : arguments.invocation ≠ [] := by simp [invoked]
      rw [runArguments_of_loaded session launch nonempty loads]
      dsimp only
      generalize runTag environment arguments.options (.ok settings) = tag
      obtain ⟨commandEq, -⟩ := planOf_of_invocation invoked
        (settings.override (settingsOf arguments.options)) tag
      generalize planOf arguments (settings.override (settingsOf arguments.options)) tag = plan
        at commandEq
      obtain ⟨actions, after, finalEq, course⟩ := plan.execute_course launch { session with tag }
      have actionsEq : (plan.execute launch { session with tag }).1.actions = actions := by
        rw [finalEq, Session.proceed, silent, List.nil_append]
      rcases ended_cases (plan.execute launch { session with tag }) with
        same | ⟨fatal, failed, gaveUp⟩
      · rw [same, actionsEq]
        exact isOfRun_of_course course
      · rw [failed] at course
        rw [gaveUp, giveUp, Session.perform, actionsEq]
        refine List.forall_mem_append.mpr ⟨isOfRun_of_course course, fun action mem => ?_⟩
        rw [List.mem_singleton.mp mem]
        exact isOfRun_gaveUp (course.ne_emptyCommand (by simp [commandEq])) _

/-- A command line that asks for a run consists of its own name, words that give just what the
options say, at most one separator, and the invocation.  Another invocation in its place, and
words that are added to it, change nothing but the invocation.  It has a program and a test
case, so the usage is never told in a run and no run lacks a program. -/
theorem run_passes_invocation_through
    (asked : answer environment words = .run arguments) :
    (∃ name pieces given separator,
      words = name :: (pieces.flatten ++ separator ++ arguments.invocation) ∧
      List.Forall₂ Gives pieces given ∧ Boundary separator arguments.invocation ∧
      given.flatten.Perm arguments.options.choices ∧
      ∀ others, 2 ≤ others.length → Boundary separator others → ∀ environment,
        answer environment (name :: (pieces.flatten ++ separator ++ others)) =
          .run ⟨arguments.options, others⟩) ∧
      (∀ more environment, answer environment (words ++ more) =
        .run ⟨arguments.options, arguments.invocation ++ more⟩) ∧
      (∃ program others testCase, arguments.invocation = program :: others ++ [testCase] ∧
        ∀ settings tag, (planOf arguments settings tag).command = program :: others ∧
          (planOf arguments settings tag).testCase = testCase) ∧
      ∀ launch files directory,
        ∀ action ∈ (run launch environment words
            { files := files, directory := directory }).1.actions, IsOfRun action := by
  obtain ⟨long, name, pieces, given, separator, wordsEq, allGive, boundary, order, acceptable⟩ :=
    answer_eq_run_iff_divided.mp asked
  have asks {others : List String} (longToo : 2 ≤ others.length)
      (boundaryToo : Boundary separator others) (environment : Environment) :
      answer environment (name :: (pieces.flatten ++ separator ++ others)) =
        .run ⟨arguments.options, others⟩ :=
    answer_eq_run_iff_divided.mpr ⟨longToo, name, pieces, given, separator, rfl, allGive,
      boundaryToo, order, acceptable⟩
  obtain ⟨program, others, testCase, invoked⟩ :
      ∃ program others testCase, arguments.invocation = program :: others ++ [testCase] := by
    rcases List.eq_nil_or_concat arguments.invocation with empty | ⟨command, testCase, invoked⟩
    · simp [empty] at long
    · cases command with
      | nil => simp [invoked] at long
      | cons program others => exact ⟨program, others, testCase, by simpa using invoked⟩
  refine ⟨⟨name, pieces, given, separator, wordsEq, allGive, boundary, order, fun _ => asks⟩, ?_,
    ⟨program, others, testCase, invoked, planOf_of_invocation invoked⟩, ?_⟩
  · intro more environment
    have longer : 2 ≤ (arguments.invocation ++ more).length := by
      rw [List.length_append]
      omega
    have extended := asks longer (boundary.append more) environment
    rw [wordsEq, List.cons_append, List.append_assoc]
    exact extended
  · intro launch files directory
    rw [run, asked]
    exact runArguments_isOfRun invoked rfl launch environment

/-- A cluster that swallows letters of options, a lone hyphen as a value, and a program that
looks like an option. -/
theorem passes_options_behind_separator :
    let words := ["tcf-runner", "-vct", "--lang", "-", "--", "--verbose", "-t", "case.tcf"]
    let arguments : Arguments :=
      ⟨⟨some "-", some "t", none, none, true⟩, ["--verbose", "-t", "case.tcf"]⟩
    answer {} words = .run arguments ∧
      ∀ more environment, answer environment (words ++ more) =
        .run ⟨arguments.options, arguments.invocation ++ more⟩ := by
  intro words arguments
  have asked : answer {} words = .run arguments := by decide
  exact ⟨asked, (run_passes_invocation_through asked).2.1⟩

end CaseHarness.Harness
