import CaseHarness.Proofs.Run.Course

/-!
# What a failed run leaves behind

The courses of a run are read here for what has happened when it fails.  A test case that is
not fit to run is found out before anything happens.  If the program makes trouble, at most the
header has been printed and the files are as the program left them.  The report is the last
thing: all else has been printed when it is written, and it alone can fail then.
-/

namespace CaseHarness

/-- Somewhere in the test case stands an exit line whose value is no exit code. -/
def TestCase.Malformed (case : TestCase) : Prop :=
  ∃ before line after value, case.lines = before ++ line :: after ∧
    line.toList = Directive.exitOpening ++ value ∧ Directive.exitValue? value = none

theorem TestCase.malformed_iff {case : TestCase} :
    case.Malformed ↔ ∀ expectations, Expectations.ofCase case ≠ .ok expectations := by
  rw [← not_iff_not]
  simp only [not_forall, not_not, Expectations.exists_ofCase_eq_ok_iff]
  constructor
  · intro wellFormed value mem
    simp only [Expectations.restsAfter, List.mem_filterMap] at mem
    obtain ⟨line, lineMem, opened⟩ := mem
    obtain ⟨before, after, linesEq⟩ := List.append_of_mem lineMem
    by_contra invalid
    exact wellFormed ⟨before, line, after, value, linesEq, Text.after?_eq_some_iff.mp opened,
      Option.not_isSome_iff_eq_none.mp invalid⟩
  · rintro allValid ⟨before, line, after, value, linesEq, opened, invalid⟩
    have mem : value ∈ Expectations.restsAfter Directive.exitOpening case.lines := by
      rw [Expectations.restsAfter, linesEq]
      exact List.mem_filterMap.mpr ⟨line, by simp, Text.after?_eq_some_iff.mpr opened⟩
    have valid := allValid value mem
    rw [invalid] at valid
    cases valid

namespace Plan

variable {plan : Plan} {launch : Launcher} {session : Session} {files after : Tree}
  {directory : Location} {actions : List Action} {result : Result Outcome}

/-- The test case of a plan is not found as a file that can be read, or it is malformed. -/
def Unfit (plan : Plan) (files : Tree) (directory : Location) : Prop :=
  ∀ case, TestCase.Found files directory plan.testCase case → case.Malformed

theorem unfit_iff :
    plan.Unfit files directory ↔ ∃ fatal, plan.prepare files directory = .error fatal := by
  constructor
  · intro unfit
    cases prepared : plan.prepare files directory with
    | error fatal => exact ⟨fatal, rfl⟩
    | ok stated =>
        obtain ⟨found, states⟩ := prepare_eq_ok_iff.mp prepared
        exact absurd states (TestCase.malformed_iff.mp (unfit stated.1 found) stated.2)
  · rintro ⟨fatal, fails⟩ case found
    rw [TestCase.malformed_iff]
    intro expectations states
    rw [prepare_eq_ok_iff.mpr ⟨found, states⟩] at fails
    cases fails

theorem Course.unfit {fatal : FatalError}
    (course : plan.Course launch files directory actions after (.failed fatal))
    (about : fatal.concern = .testCase) : plan.Unfit files directory := by
  cases course with
  | refused unprepared => exact unfit_iff.mpr ⟨fatal, unprepared⟩
  | unstarted prepared unstarted =>
      rw [unstarted.concern] at about
      cases about
  | uncaptured => cases about
  | unwritten => cases about

/-- A run that fails for its program has printed at most the header, and the files are as they
were or as the program left them. -/
theorem Course.of_program_failed {fatal : FatalError}
    (course : plan.Course launch files directory actions after (.failed fatal))
    (about : fatal.concern = .program) :
    ∃ case, TestCase.Found files directory plan.testCase case ∧
      ((actions = plan.heading case ∧ after = files) ∨
        ∃ request launched, launch files request = .ok launched ∧
          actions = plan.heading case ++ [.started request] ∧ after = launched.files) := by
  cases course with
  | refused unprepared =>
      rw [concern_of_prepare unprepared] at about
      cases about
  | unstarted prepared unstarted =>
      exact ⟨_, (prepare_eq_ok_iff.mp prepared).1, Or.inl ⟨rfl, rfl⟩⟩
  | uncaptured starts =>
      exact ⟨_, starts.found, Or.inr ⟨_, _, starts.spawns.granted, rfl, rfl⟩⟩
  | unwritten => cases about

theorem reported_notMem_verdict {case : TestCase} {expectations : Expectations}
    {execution : Execution} {request : Request} {path : String} {report : Report} :
    .reported path report ∉
      plan.heading case ++ .started request :: plan.verdict case expectations execution := by
  intro mem
  simp only [List.mem_append, List.mem_cons, reduceCtorEq, false_or] at mem
  rcases mem with mem | mem
  · obtain ⟨pieces, other⟩ := printed_of_mem_heading mem
    cases other
  · obtain ⟨pieces, other⟩ := printed_of_mem_verdict mem
    cases other

/-- A report stands behind everything but the notice about it. -/
theorem Course.of_reported {before rest : List Action} {path : String} {report : Report}
    (course : plan.Course launch files directory actions after result)
    (actionsEq : actions = before ++ .reported path report :: rest) :
    ∃ case expectations request execution,
      before = plan.heading case ++ .started request :: plan.verdict case expectations execution ∧
      report = plan.reportOf case expectations execution ∧ rest = plan.notice path ∧
      plan.report = some path ∧
      result = .done (Verification.verify expectations execution) := by
  have mem : .reported path report ∈ actions := by simp [actionsEq]
  cases course with
  | refused => cases mem
  | unstarted =>
      obtain ⟨pieces, other⟩ := printed_of_mem_heading mem
      cases other
  | uncaptured | aborted | endless =>
      rcases List.mem_append.mp mem with mem | mem
      · obtain ⟨pieces, other⟩ := printed_of_mem_heading mem
        cases other
      · cases List.mem_singleton.mp mem
  | unreported | unwritten => exact absurd mem reported_notMem_verdict
  | @reported case expectations request launched execution path' after starts captured asked =>
      have notInNotice : .reported path report ∉ plan.notice path' := by
        intro mem
        obtain ⟨pieces, other⟩ := printed_of_mem_notice mem
        cases other
      -- The actions hold one report, so both divide them at the same place.
      rw [List.append_cons_inj_of_notMem reported_notMem_verdict notInNotice] at actionsEq
      obtain ⟨beforeEq, reportEq, restEq⟩ := actionsEq
      cases reportEq
      exact ⟨case, expectations, request, execution, beforeEq.symm, rfl, restEq.symm, asked, rfl⟩

/-- What has been echoed has been captured, so only the report can fail. -/
theorem Course.of_echoed {output : String} {fatal : FatalError}
    (course : plan.Course launch files directory actions after (.failed fatal))
    (echoed : .printed [.output output] ∈ actions) :
    ∃ path cause, plan.report = some path ∧ fatal = .reportUnwritable path cause := by
  have notHeading (case : TestCase) : .printed [.output output] ∉ plan.heading case := by
    unfold heading
    split <;> simp [Console.header]
  cases course with
  | refused => cases echoed
  | unstarted => exact absurd echoed (notHeading _)
  | uncaptured => simp [notHeading] at echoed
  | unwritten starts captured asked => exact ⟨_, _, asked, rfl⟩

theorem output_heading (plan : Plan) (case : TestCase) (colored : Bool) :
    String.join ((plan.heading case).map (Action.output colored)) =
      if plan.verbose then
        Console.text colored (Console.header plan.tag
          (Text.Quoted.commandLine (case.arguments plan.command)) case.directory plan.limit)
      else "" := by
  unfold heading
  split <;> simp [Action.output]

/-- A run fails for its test case exactly if this is not fit, and then nothing has happened,
whatever the launcher.  If it fails for its program, at most the header has been printed and
the files are as they were or as the program left them.  A report is written when all else has
been printed, and once the output has been echoed only the report can fail. -/
theorem failed_run_leaves_no_trace (plan : Plan) (launch : Launcher) (session : Session) :
    let final := (plan.execute launch session).1
    let result := (plan.execute launch session).2
    ∃ actions after, final = session.proceed actions after ∧
      (∀ fatal, result = .failed fatal → fatal.concern = .testCase →
        plan.Unfit session.files session.directory) ∧
      (plan.Unfit session.files session.directory → ∃ fatal, fatal.concern = .testCase ∧
        ∀ anyLauncher, plan.execute anyLauncher session = (session, .failed fatal)) ∧
      (∀ fatal, result = .failed fatal → fatal.concern = .program →
        ∃ case, TestCase.Found session.files session.directory plan.testCase case ∧
          (∀ colored, final.output colored = session.output colored ++
            if plan.verbose then
              Console.text colored (Console.header plan.tag
                (Text.Quoted.commandLine (case.arguments plan.command)) case.directory plan.limit)
            else "") ∧
          ((actions = plan.heading case ∧ after = session.files) ∨
            ∃ request launched, launch session.files request = .ok launched ∧
              actions = plan.heading case ++ [.started request] ∧ after = launched.files)) ∧
      (∀ before path report rest, actions = before ++ .reported path report :: rest →
        ∃ case expectations request execution,
          before =
            plan.heading case ++ .started request :: plan.verdict case expectations execution ∧
          report = plan.reportOf case expectations execution ∧ rest = plan.notice path ∧
          plan.report = some path ∧
          result = .done (Verification.verify expectations execution)) ∧
      ∀ output fatal, .printed [.output output] ∈ actions → result = .failed fatal →
        ∃ path cause, plan.report = some path ∧ fatal = .reportUnwritable path cause := by
  intro final result
  obtain ⟨actions, after, finalEq, course⟩ := plan.execute_course launch session
  have ends {fatal : FatalError} (failed : result = .failed fatal) :
      plan.Course launch session.files session.directory actions after (.failed fatal) := by
    rw [← failed]
    exact course
  refine ⟨actions, after, finalEq, ?_, ?_, ?_, ?_, ?_⟩
  · intro fatal failed about
    exact (ends failed).unfit about
  · intro unfit
    obtain ⟨fatal, unprepared⟩ := unfit_iff.mp unfit
    refine ⟨fatal, concern_of_prepare unprepared, fun anyLauncher => ?_⟩
    rw [execute, unprepared]
  · intro fatal failed about
    obtain ⟨case, found, left⟩ := (ends failed).of_program_failed about
    refine ⟨case, found, fun colored => ?_, left⟩
    have printed : String.join (actions.map (Action.output colored)) =
        String.join ((plan.heading case).map (Action.output colored)) := by
      rcases left with ⟨rfl, -⟩ | ⟨request, launched, -, rfl, -⟩
      · rfl
      · simp [Action.output]
    rw [← output_heading, ← printed]
    change final = _ at finalEq
    rw [finalEq, Session.output_proceed]
  · intro before path report rest actionsEq
    exact course.of_reported actionsEq
  · intro output fatal echoed failed
    exact (ends failed).of_echoed echoed

end Plan

end CaseHarness
