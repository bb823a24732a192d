import CaseHarness.Proofs.Run.Course
import CaseHarness.Run.Harness

/-!
# The exit status of the harness

Each stage of the harness ends it in its own way: the reader of the command line with an
answer, the settings and the stages of a run with a fatal error, and the verdict with a status
of its own.  The status is zero only at the end of the longest of these ways, or if help or the
version was asked for, and otherwise it is one.  Two ways have no status: the clock cannot show
the end of the time of the program, or the capture comes to no end.
-/

namespace CaseHarness.Harness

open CommandLine (Arguments)

variable {launch : Launcher} {environment : Environment} {words : List String}
  {session : Session} {plan other : Plan}

/-- The words of a command line can be read and name a program and a test case, the settings
can be loaded, and together they ask for the plan: the last word of the invocation names the
test case, and an option comes before a setting. -/
def AskFor (words : List String) (files : Tree) (directory : Location) (plan : Plan) : Prop :=
  ∃ arguments settings, CommandLine.read words = .ok arguments ∧
    2 ≤ arguments.invocation.length ∧
    Settings.loadOptional files directory arguments.options.config = .ok settings ∧
    arguments.invocation = plan.command ++ [plan.testCase] ∧
    plan.limit = (arguments.options.timeout.or settings.timeoutSeconds).map
      (fun seconds => ⟨seconds, 0⟩) ∧
    plan.report = arguments.options.report.or settings.report

/-- How the harness ends once the plan has been carried out. -/
def statusOf : Result Outcome → Status
  | .done outcome => .exited outcome.exitStatus
  | .failed _ => .exited 1
  | .aborted => .aborted
  | .endless => .endless

theorem status_ended (ran : Session × Result Outcome) : (ended ran).2 = statusOf ran.2 := by
  obtain ⟨final, result⟩ := ran
  cases result <;> rfl

/-- Plans that a command line asks for differ in their languages and headers only. -/
theorem AskFor.eq {files : Tree} {directory : Location} (asks : AskFor words files directory plan)
    (asksToo : AskFor words files directory other) :
    other = { plan with verbose := other.verbose, tag := other.tag } := by
  obtain ⟨arguments, settings, reads, -, loads, invocation, limit, report⟩ := asks
  obtain ⟨argumentsToo, settingsToo, readsToo, -, loadsToo, invocationToo, limitToo, reportToo⟩ :=
    asksToo
  rw [reads] at readsToo
  cases readsToo
  rw [loads] at loadsToo
  cases loadsToo
  have wordsEq := invocation.symm.trans invocationToo
  obtain ⟨commandEq, testCaseEq⟩ := List.append_inj' wordsEq rfl
  rcases other with ⟨command, testCase, otherLimit, otherReport, verbose, tag⟩
  simp only [List.cons.injEq, and_true] at commandEq testCaseEq limitToo reportToo
  simp [commandEq, testCaseEq, limit, limitToo, report, reportToo]

theorem askFor_planOf {files : Tree} {directory : Location} {arguments : Arguments}
    {settings : Settings} (reads : CommandLine.read words = .ok arguments)
    (long : 2 ≤ arguments.invocation.length)
    (loads : Settings.loadOptional files directory arguments.options.config = .ok settings)
    (tag : String) :
    AskFor words files directory
      (planOf arguments (settings.override (settingsOf arguments.options)) tag) := by
  refine ⟨arguments, settings, reads, long, loads, ?_, rfl, rfl⟩
  have nonempty : arguments.invocation ≠ [] := by
    intro empty
    simp [empty] at long
  simp only [planOf, List.getLast?_eq_getLast_of_ne_nil nonempty, Option.getD_some]
  exact (List.dropLast_append_getLast nonempty).symm

theorem runArguments_status (launch : Launcher) (environment : Environment)
    {arguments : Arguments} (invoked : arguments.invocation ≠ []) (session : Session) :
    (∃ fatal, Settings.loadOptional session.files session.directory arguments.options.config =
        .error fatal ∧
      (runArguments launch environment arguments session).2 = .exited 1) ∨
    ∃ settings tag, Settings.loadOptional session.files session.directory
        arguments.options.config = .ok settings ∧
      (runArguments launch environment arguments session).2 =
        statusOf ((planOf arguments (settings.override (settingsOf arguments.options)) tag).execute
          launch { session with tag := tag }).2 := by
  have ready : adoptRequested arguments.options session =
      { session with tag := (adoptRequested arguments.options session).tag } := by
    unfold adoptRequested
    split <;> rfl
  unfold runArguments
  rw [ready]
  dsimp only
  split
  · next fatal fails => exact Or.inl ⟨fatal, fails, rfl⟩
  · next settings loads =>
    refine Or.inr ⟨settings,
      chooseTag environment (settings.override (settingsOf arguments.options)), loads, ?_⟩
    rw [if_neg invoked]
    exact status_ended _

/-- A command line asks for help or the version, or it asks for a plan, whose result decides,
or the harness ends with status one. -/
theorem run_status_cases (launch : Launcher) (environment : Environment) (words : List String)
    (session : Session) :
    ((CommandLine.read words = .error .help ∨ CommandLine.read words = .error .version) ∧
      (run launch environment words session).2 = .exited 0) ∨
    (∃ plan tag, AskFor words session.files session.directory plan ∧
      (run launch environment words session).2 =
        statusOf (plan.execute launch { session with tag := tag }).2) ∨
    (¬ (CommandLine.read words = .error .help ∨ CommandLine.read words = .error .version) ∧
      (∀ plan, ¬ AskFor words session.files session.directory plan) ∧
      (run launch environment words session).2 = .exited 1) := by
  unfold run
  split
  · next status text answered =>
    unfold CommandLine.answer at answered
    dsimp only at answered
    split at answered
    · next arguments reads =>
      split at answered
      · next short =>
        cases answered
        refine Or.inr (Or.inr ⟨by simp [reads], ?_, rfl⟩)
        rintro plan ⟨argumentsToo, settings, readsToo, long, -⟩
        rw [reads] at readsToo
        cases readsToo
        omega
      · cases answered
    · next reads =>
      cases answered
      exact Or.inl ⟨Or.inl reads, rfl⟩
    · next reads =>
      cases answered
      exact Or.inl ⟨Or.inr reads, rfl⟩
    · next fault reads =>
      cases answered
      refine Or.inr (Or.inr ⟨by simp [reads], ?_, rfl⟩)
      rintro plan ⟨arguments, settings, readsToo, -⟩
      rw [reads] at readsToo
      cases readsToo
  · next arguments answered =>
    obtain ⟨reads, long⟩ := CommandLine.answer_eq_run_iff.mp answered
    have invoked := CommandLine.invocation_ne_nil answered
    rcases runArguments_status launch environment invoked session with
      ⟨fatal, fails, status⟩ | ⟨settings, tag, loads, status⟩
    · refine Or.inr (Or.inr ⟨by simp [reads], ?_, status⟩)
      rintro plan ⟨argumentsToo, settings, readsToo, -, loads, -⟩
      rw [reads] at readsToo
      cases readsToo
      rw [fails] at loads
      cases loads
    · exact Or.inr (Or.inl ⟨_, tag, askFor_planOf reads long loads tag, status⟩)

theorem exitStatus_eq_zero_iff {outcome : Outcome} :
    outcome.exitStatus = 0 ↔ outcome.failures = [] := by
  unfold Outcome.exitStatus Outcome.passed
  cases outcome.failures <;> simp

theorem statusOf_execute_eq_zero_iff :
    statusOf (plan.execute launch session).2 = .exited 0 ↔
      ∃ outcome, plan.Concludes launch session.files session.directory outcome ∧
        outcome.failures = [] := by
  simp only [← Plan.execute_eq_done_iff, ← exitStatus_eq_zero_iff]
  cases (plan.execute launch session).2 <;> simp [statusOf]

theorem statusOf_execute_eq_aborted_iff :
    statusOf (plan.execute launch session).2 = .aborted ↔
      plan.Overruns launch session.files session.directory := by
  rw [← Plan.execute_eq_aborted_iff]
  cases (plan.execute launch session).2 <;> simp [statusOf]

theorem statusOf_execute_eq_endless_iff :
    statusOf (plan.execute launch session).2 = .endless ↔
      plan.Hangs launch session.files session.directory := by
  rw [← Plan.execute_eq_endless_iff]
  cases (plan.execute launch session).2 <;> simp [statusOf]

theorem statusOf_le_one {result : Result Outcome} {status : Nat}
    (ends : statusOf result = .exited status) : status = 0 ∨ status = 1 := by
  cases result with
  | done outcome =>
      cases ends
      unfold Outcome.exitStatus
      split
      · exact Or.inl rfl
      · exact Or.inr rfl
  | failed fatal =>
      cases ends
      exact Or.inr rfl
  | aborted | endless => cases ends

/-- Plans that a command line asks for are carried out alike, so any one of them tells what
becomes of the others. -/
theorem exists_askFor_and_iff {files : Tree} {directory : Location} (becomes : Plan → Prop)
    (retag : ∀ (other : Plan) verbose tag, becomes other →
      becomes { other with verbose := verbose, tag := tag })
    (asks : AskFor words files directory plan) :
    (∃ other, AskFor words files directory other ∧ becomes other) ↔ becomes plan := by
  constructor
  · rintro ⟨other, asksToo, carried⟩
    rw [asksToo.eq asks]
    exact retag other _ _ carried
  · exact fun carried => ⟨plan, asks, carried⟩

/-- The exit status is zero or one, and it is zero exactly if help or the version was asked for,
or a plan is asked for, all its stages succeed and its verdict is without a failure.  Two kinds
of runs have no status of their own and are left out of this: the harness breaks off exactly if
the program is started with a limit that leads beyond the end of the clock, and it never ends
exactly if the program is started and its capture comes to no end. -/
theorem run_exit_status (launch : Launcher) (environment : Environment) (words : List String)
    (session : Session) :
    let status := (run launch environment words session).2
    (status = .exited 0 ↔
      (CommandLine.read words = .error .help ∨ CommandLine.read words = .error .version) ∨
        ∃ plan, AskFor words session.files session.directory plan ∧
          ∃ outcome, plan.Concludes launch session.files session.directory outcome ∧
            outcome.failures = []) ∧
      (status = .aborted ↔
        ∃ plan, AskFor words session.files session.directory plan ∧
          plan.Overruns launch session.files session.directory) ∧
      (status = .endless ↔
        ∃ plan, AskFor words session.files session.directory plan ∧
          plan.Hangs launch session.files session.directory) ∧
      ∀ code, status = .exited code → code = 0 ∨ code = 1 := by
  intro status
  rcases run_status_cases launch environment words session with ⟨asked, ends⟩ |
    ⟨plan, tag, asks, ends⟩ | ⟨unasked, noPlan, ends⟩
  · have statusEq : status = .exited 0 := ends
    have noPlan : ∀ plan, ¬ AskFor words session.files session.directory plan := by
      rintro plan ⟨arguments, settings, reads, -⟩
      rcases asked with help | version
      · rw [help] at reads
        cases reads
      · rw [version] at reads
        cases reads
    simp [statusEq, asked, noPlan]
  · have statusEq : status = statusOf (plan.execute launch { session with tag := tag }).2 := ends
    have unasked :
        ¬ (CommandLine.read words = .error .help ∨ CommandLine.read words = .error .version) := by
      obtain ⟨arguments, settings, reads, -⟩ := asks
      simp [reads]
    rw [statusEq]
    refine ⟨?_, ?_, ?_, fun code => statusOf_le_one⟩
    · rw [statusOf_execute_eq_zero_iff, or_iff_right unasked]
      refine (exists_askFor_and_iff (fun plan => ∃ outcome, plan.Concludes launch session.files
        session.directory outcome ∧ outcome.failures = []) ?_ asks).symm
      rintro other verbose tag ⟨outcome, concludes, passed⟩
      exact ⟨outcome, concludes.retag verbose tag, passed⟩
    · rw [statusOf_execute_eq_aborted_iff]
      exact (exists_askFor_and_iff (fun plan => plan.Overruns launch session.files
        session.directory) (fun _ verbose tag late => late.retag verbose tag) asks).symm
    · rw [statusOf_execute_eq_endless_iff]
      exact (exists_askFor_and_iff (fun plan => plan.Hangs launch session.files
        session.directory) (fun _ verbose tag hangs => hangs.retag verbose tag) asks).symm
  · have statusEq : status = .exited 1 := ends
    simp [statusEq, noPlan, unasked]

/-- The clock has just begun: of two limits that differ by a second, the longer one leads beyond
its end. -/
example :
    let session : Session := { files := ⟨[(["t.tcf"], .file [] false)]⟩, directory := [] }
    let launch : Launcher := fun files _ => .ok
      { events :=
          [.childEnded (.exited 0), .supplied .output .ended, .supplied .errors .ended,
            .advanced .output, .advanced .errors]
        elapsed := 0
        files := files }
    let status (seconds : String) : Status :=
      (run launch {} ["tcf-runner", "-t", seconds, "true", "t.tcf"] session).2
    status "9223372036854775807" = .exited 0 ∧ status "9223372036854775808" = .aborted := by
  decide +kernel

end CaseHarness.Harness
