import CaseHarness.Proofs.Report
import CaseHarness.Proofs.Run.Course
import CaseHarness.Proofs.Run.ExitStatus
import CaseHarness.Proofs.Verification.Failures

/-!
# Report, console and exit status

A run with a report tells its verdict three times: on the standard output, in the report and
by its exit status.  All three come from one list of failures and from the way the program
ended, so they agree with each other and with what the test case expects.
-/

namespace CaseHarness

/-- The message of a piece, if it is a line of the harness. -/
def Console.Piece.message? : Console.Piece → Option Message
  | message _ _ content => some content
  | output _ | emptyLine => none

/-- A report, the pieces printed after the echo, and an exit status tell the same of one run. -/
structure Report.Agrees (report : Report) (pieces : List Console.Piece) (tag name : String)
    (exitStatus : Nat) : Prop where
  passed : report.passed = true ↔ report.failures = []
  status : exitStatus = 0 ↔ report.failures = []
  summary : pieces.getLast? = some (.message .greenBold tag (.passed name)) ↔
    report.failures = []
  /-- The failures are printed in their order, and the summary behind them. -/
  messages : ∃ style summary, pieces.getLast? = some (.message style tag summary) ∧
    pieces.filterMap Console.Piece.message? = report.failures.map Failure.toMessage ++ [summary]
  noCode : report.exitCode = none ↔ ∃ milliseconds, report.termination = .timedOut milliseconds
  outOfTime : ∀ milliseconds, report.termination = .timedOut milliseconds ↔
    report.failures = [.timedOut milliseconds]
  nonZero : ∀ actual, .nonZeroExit actual ∈ report.failures → report.exitCode = some actual
  mismatch : ∀ actual expected, .exitCodeMismatch actual expected ∈ report.failures →
    report.exitCode = some actual
  missed : (report.failures.filterMap Failure.check?).Sublist report.expectations.checks

theorem Outcome.passed_iff {outcome : Outcome} : outcome.passed = true ↔ outcome.failures = [] := by
  simp [passed]

theorem Termination.effectiveCode?_eq_none_iff {termination : Termination} :
    termination.effectiveCode? = none ↔ ∃ milliseconds, termination = .timedOut milliseconds := by
  cases termination <;> simp [effectiveCode?]

namespace Console

theorem message?_failure (tag output : String) (failed : Failure) :
    (failure tag output failed).filterMap Piece.message? = [failed.toMessage] := by
  unfold failure
  split <;> rfl

/-- The summary names the test case as passed or counts the failures. -/
theorem exists_summary (tag name : String) (outcome : Outcome) :
    ∃ style content, summary tag name outcome = .message style tag content := by
  unfold summary
  split
  · exact ⟨_, _, rfl⟩
  · exact ⟨_, _, rfl⟩

theorem summary_eq_passed_iff {tag name : String} {outcome : Outcome} :
    summary tag name outcome = .message .greenBold tag (.passed name) ↔ outcome.failures = [] := by
  rw [← Outcome.passed_iff, summary]
  split
  · next passed => simp [passed]
  · next failed => simp [failed]

theorem getLast?_outcome (tag name output : String) (verdict : Outcome) :
    (outcome tag name output verdict).getLast? = some (summary tag name verdict) := by
  simp [outcome]

theorem filterMap_message?_outcome {tag name output : String} {verdict : Outcome} {style : Style}
    {content : Message} (summaryEq : summary tag name verdict = .message style tag content) :
    (outcome tag name output verdict).filterMap Piece.message? =
      verdict.failures.map Failure.toMessage ++ [content] := by
  have messages : (verdict.failures.flatMap (failure tag output)).filterMap Piece.message? =
      verdict.failures.map Failure.toMessage := by
    simp only [List.filterMap_flatMap, message?_failure, ← List.map_eq_flatMap]
  rw [outcome, List.filterMap_append, messages, summaryEq]
  rfl

end Console

namespace Plan

variable {plan : Plan} {launch : Launcher} {session : Session} {path : String} {outcome : Outcome}

theorem reportOf_agrees (plan : Plan) (case : TestCase) (expectations : Expectations)
    (execution : Execution) :
    let verdict := Verification.verify expectations execution
    (plan.reportOf case expectations execution).Agrees
      (Console.outcome plan.tag case.name execution.output verdict) plan.tag case.name
      verdict.exitStatus := by
  intro verdict
  have judges := Verification.judges_verify expectations execution
  obtain ⟨style, content, summaryEq⟩ := Console.exists_summary plan.tag case.name verdict
  have last := Console.getLast?_outcome plan.tag case.name execution.output verdict
  exact {
    passed := Outcome.passed_iff
    status := Harness.exitStatus_eq_zero_iff
    summary := by
      rw [last, Option.some.injEq]
      exact Console.summary_eq_passed_iff
    messages := ⟨style, content, by rw [last, summaryEq],
      Console.filterMap_message?_outcome summaryEq⟩
    noCode := Termination.effectiveCode?_eq_none_iff
    outOfTime := fun _ => judges.timedOut_iff.symm
    nonZero := fun _ mem => judges.effectiveCode?_of_nonZeroExit mem
    mismatch := fun _ _ mem => judges.effectiveCode?_of_exitCodeMismatch mem
    missed := judges.sublist_checks }

/-- A run that has a verdict and writes a report has printed just the failures of the report.
The report can be decoded from what was written, and it agrees with what was printed and with
the exit status. -/
theorem report_agrees_with_console_and_status (asked : plan.report = some path)
    (done : (plan.execute launch session).2 = .done outcome) :
    ∃ case request launched output pieces report after,
      (plan.execute launch session).1 =
        session.proceed (plan.heading case ++
          [.started request, .printed [.output output], .printed pieces, .reported path report] ++
          plan.notice path) after ∧
      launch session.files request = .ok launched ∧
      launched.files.write session.directory path (Text.Utf8.encode report.text) = .ok after ∧
      (Json.read? report.text).bind Report.ofJson? = some report ∧
      Expectations.ofCase case = .ok report.expectations ∧
      report.Agrees pieces plan.tag case.name outcome.exitStatus := by
  obtain ⟨actions, after, finalEq, course⟩ := plan.execute_course launch session
  rw [done] at course
  cases course with
  | unreported _ _ unasked =>
      rw [asked] at unasked
      cases unasked
  | @reported case expectations request launched execution asksFor after starts captured askedToo
      writes =>
      rw [asked] at askedToo
      cases askedToo
      have agrees := plan.reportOf_agrees case expectations execution
      refine ⟨case, request, launched, execution.output, _, _, after, ?_, starts.spawns.granted,
        writes, Report.decode_text _, starts.stated, agrees⟩
      rw [finalEq]
      simp [verdict]

/-- The program prints the second pattern only, and a signal ends it. -/
theorem agrees_on_missed_check :
    let plan : Plan := ⟨["prog"], "t.tcf", none, some "r.json", true, "en"⟩
    let session : Session :=
      { files :=
          ⟨[(["t.tcf"], .file (Text.Utf8.encode "# EXIT -9\n# CHECK: a\n# CHECK: b") false)]⟩
        directory := [] }
    let launch : Launcher := fun files _ => .ok
      { events :=
          [.childEnded (.signaled 9), .taken .errors [98, 10], .supplied .errors .ended,
            .supplied .output .ended, .advanced .output, .advanced .errors, .advanced .errors]
        elapsed := 1500000
        files := files }
    (plan.execute launch session).2 = .done ⟨[.checkNotFound 2 "a"]⟩ ∧
      ∃ case pieces report, (report : Report).Agrees pieces plan.tag (TestCase.name case) 1 := by
  intro plan session launch
  have done : (plan.execute launch session).2 = .done ⟨[.checkNotFound 2 "a"]⟩ := by
    decide +kernel
  obtain ⟨case, _, _, _, pieces, report, _, _, _, _, _, _, agrees⟩ :=
    report_agrees_with_console_and_status rfl done
  exact ⟨done, case, pieces, report, agrees⟩

end Plan

end CaseHarness
