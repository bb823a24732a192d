import CaseHarness.Proofs.Run.Stages

/-!
# The course of a run

Whatever becomes of a run, it takes one of eight courses: it is refused for its test case, its
program does not start, the end of its time lies beyond the end of the clock, its output cannot
be captured or never ends, or there is a verdict, and then no report is asked for, or it cannot be
written, or it is.  Each course is told with all that the run does: its actions in their order,
the files that it leaves and its result.  So the run has a verdict exactly if all stages succeed,
it breaks off exactly if the program is started with a limit that the clock cannot count off,
and it never ends exactly if the program is started and its capture comes to no end.
-/

namespace CaseHarness

/-- The session in which further actions have been done and the files are these. -/
def Session.proceed (session : Session) (actions : List Action) (files : Tree) : Session :=
  { session with files := files, actions := session.actions ++ actions }

/-- What a fatal error is about. -/
inductive Concern where
  | testCase
  | settings
  | program
  | report
  deriving DecidableEq

def FatalError.concern : FatalError → Concern
  | caseNotFound _ | caseUnreadable .. | caseDirectoryUnresolved _ | invalidExitCode .. => .testCase
  | configUnreadable .. | configMalformed _ => .settings
  | programNotFound _ | emptyCommand | spawnFailed .. => .program
  | reportUnwritable .. => .report

theorem Session.proceed_proceed (session : Session) (first second : List Action)
    (files after : Tree) :
    (session.proceed first files).proceed second after =
      session.proceed (first ++ second) after := by
  simp [proceed]

theorem Session.output_proceed (session : Session) (actions : List Action) (files : Tree)
    (colored : Bool) :
    (session.proceed actions files).output colored =
      session.output colored ++ String.join (actions.map (Action.output colored)) := by
  simp [output, proceed]

theorem Session.start_eq (session : Session) (request : Request) (launched : Launched) :
    session.start request launched = session.proceed [.started request] launched.files :=
  rfl

theorem TestCase.concern_of_load {files : Tree} {directory : Location} {path : String}
    {fatal : FatalError} (fails : load files directory path = .error fatal) :
    fatal.concern = .testCase := by
  unfold load at fails
  split at fails
  · next located =>
    cases fails
    unfold locate at located
    split at located
    · split at located
      · cases located
        rfl
      · split at located <;> cases located
        rfl
    · cases located
      rfl
  · split at fails <;> cases fails
    rfl

theorem eq_programNotFound_of_resolveProgram {files : Tree} {directory : Location}
    {program : String} {fatal : FatalError}
    (fails : resolveProgram files directory program = .error fatal) :
    fatal = .programNotFound program := by
  unfold resolveProgram at fails
  split at fails
  · cases fails
  · dsimp only at fails
    split at fails <;> cases fails
    rfl

theorem Unstarted.concern {launch : Launcher} {files : Tree} {directory : Location}
    {case : TestCase} {limit : Option Duration} {command : List String} {fatal : FatalError}
    (unstarted : Unstarted launch files directory case limit command fatal) :
    fatal.concern = .program := by
  cases unstarted with
  | nothing => rfl
  | unresolved fails =>
      rw [eq_programNotFound_of_resolveProgram fails]
      rfl
  | refused => rfl

namespace Plan

variable {plan : Plan} {launch : Launcher} {session : Session} {files after : Tree}
  {directory : Location} {case : TestCase} {expectations : Expectations} {execution : Execution}
  {request : Request} {launched : Launched} {outcome : Outcome}

/-- The header of a verbose run. -/
def heading (plan : Plan) (case : TestCase) : List Action :=
  if plan.verbose then
    [.printed (Console.header plan.tag (Text.Quoted.commandLine (case.arguments plan.command))
      case.directory plan.limit)]
  else []

/-- What is printed once a program has been captured: its output, then the failures and the
summary. -/
def verdict (plan : Plan) (case : TestCase) (expectations : Expectations)
    (execution : Execution) : List Action :=
  [.printed [.output execution.output],
    .printed (Console.outcome plan.tag case.name execution.output
      (Verification.verify expectations execution))]

/-- What a verbose run says about its report. -/
def notice (plan : Plan) (path : String) : List Action :=
  if plan.verbose then [.printed [Console.reportNotice plan.tag path]] else []

/-- What a run of a plan may do, the files that it leaves, and its result. -/
inductive Course (plan : Plan) (launch : Launcher) (files : Tree) (directory : Location) :
    List Action → Tree → Result Outcome → Prop
  | refused {fatal : FatalError} (unprepared : plan.prepare files directory = .error fatal) :
      Course plan launch files directory [] files (.failed fatal)
  | unstarted {case : TestCase} {expectations : Expectations} {fatal : FatalError}
      (prepared : plan.prepare files directory = .ok (case, expectations))
      (unstarted : Unstarted launch files directory case plan.limit plan.command fatal) :
      Course plan launch files directory (plan.heading case) files (.failed fatal)
  | uncaptured {case : TestCase} {expectations : Expectations} {request : Request}
      {launched : Launched} {program : String} {fault : CaptureFault}
      (starts : plan.Starts launch files directory case expectations request launched)
      (named : plan.command.head? = some program) (faulty : launched.Faulty plan.limit fault) :
      Course plan launch files directory (plan.heading case ++ [.started request]) launched.files
        (.failed (.spawnFailed program (.notCaptured fault)))
  | aborted {case : TestCase} {expectations : Expectations} {request : Request}
      {launched : Launched}
      (starts : plan.Starts launch files directory case expectations request launched)
      (overruns : launched.overruns plan.limit = true) :
      Course plan launch files directory (plan.heading case ++ [.started request]) launched.files
        .aborted
  | endless {case : TestCase} {expectations : Expectations} {request : Request}
      {launched : Launched}
      (starts : plan.Starts launch files directory case expectations request launched)
      (endless : launched.Endless plan.limit) :
      Course plan launch files directory (plan.heading case ++ [.started request]) launched.files
        .endless
  | unreported {case : TestCase} {expectations : Expectations} {request : Request}
      {launched : Launched} {execution : Execution}
      (starts : plan.Starts launch files directory case expectations request launched)
      (captured : execution.Captured plan.limit launched) (unasked : plan.report = none) :
      Course plan launch files directory
        (plan.heading case ++ .started request :: plan.verdict case expectations execution)
        launched.files (.done (Verification.verify expectations execution))
  | unwritten {case : TestCase} {expectations : Expectations} {request : Request}
      {launched : Launched} {execution : Execution} {path : String} {cause : FileError}
      (starts : plan.Starts launch files directory case expectations request launched)
      (captured : execution.Captured plan.limit launched) (asked : plan.report = some path)
      (fails : launched.files.write directory path
        (Text.Utf8.encode (plan.reportOf case expectations execution).text) = .error cause) :
      Course plan launch files directory
        (plan.heading case ++ .started request :: plan.verdict case expectations execution)
        launched.files (.failed (.reportUnwritable path cause))
  | reported {case : TestCase} {expectations : Expectations} {request : Request}
      {launched : Launched} {execution : Execution} {path : String} {after : Tree}
      (starts : plan.Starts launch files directory case expectations request launched)
      (captured : execution.Captured plan.limit launched) (asked : plan.report = some path)
      (writes : launched.files.write directory path
        (Text.Utf8.encode (plan.reportOf case expectations execution).text) = .ok after) :
      Course plan launch files directory
        (plan.heading case ++ .started request :: plan.verdict case expectations execution ++
          .reported path (plan.reportOf case expectations execution) :: plan.notice path)
        after (.done (Verification.verify expectations execution))

theorem concern_of_prepare {fatal : FatalError}
    (fails : plan.prepare files directory = .error fatal) : fatal.concern = .testCase := by
  unfold prepare at fails
  split at fails
  · next unloaded =>
    cases fails
    exact TestCase.concern_of_load unloaded
  · split at fails <;> cases fails
    rfl

theorem announce_eq (plan : Plan) (case : TestCase) (session : Session) :
    plan.announce case session = session.proceed (plan.heading case) session.files := by
  unfold announce heading
  split
  · rfl
  · simp [Session.proceed]

theorem conclude_unreported (session : Session) (unasked : plan.report = none) :
    plan.conclude case expectations execution session =
      (session.proceed (plan.verdict case expectations execution) session.files,
        .done (Verification.verify expectations execution)) := by
  simp [conclude, writeReport, unasked, Session.print, Session.perform, Session.proceed, verdict]

theorem conclude_unwritten (session : Session) {path : String} {cause : FileError}
    (asked : plan.report = some path)
    (fails : session.files.write session.directory path
      (Text.Utf8.encode (plan.reportOf case expectations execution).text) = .error cause) :
    plan.conclude case expectations execution session =
      (session.proceed (plan.verdict case expectations execution) session.files,
        .failed (.reportUnwritable path cause)) := by
  rw [reportOf] at fails
  simp [conclude, writeReport, asked, fails, Session.print, Session.perform, Session.proceed,
    verdict]

theorem conclude_reported (session : Session) {path : String} (asked : plan.report = some path)
    (writes : session.files.write session.directory path
      (Text.Utf8.encode (plan.reportOf case expectations execution).text) = .ok after) :
    plan.conclude case expectations execution session =
      (session.proceed (plan.verdict case expectations execution ++
          .reported path (plan.reportOf case expectations execution) :: plan.notice path) after,
        .done (Verification.verify expectations execution)) := by
  rw [reportOf] at writes
  unfold conclude writeReport notice
  cases plan.verbose <;>
    simp [asked, writes, Session.print, Session.perform, Session.proceed, verdict, reportOf]

/-- With the program captured, the run goes on to its verdict. -/
theorem conclude_course
    (starts : plan.Starts launch session.files session.directory case expectations request
      launched)
    (captured : execution.Captured plan.limit launched) :
    let started := session.proceed (plan.heading case ++ [.started request]) launched.files
    ∃ actions after,
      (plan.conclude case expectations execution started).1 = session.proceed actions after ∧
        plan.Course launch session.files session.directory actions after
          (plan.conclude case expectations execution started).2 := by
  intro started
  cases asked : plan.report with
  | none =>
      rw [conclude_unreported started asked, Session.proceed_proceed, List.append_assoc]
      exact ⟨_, _, rfl, .unreported starts captured asked⟩
  | some path =>
      cases writes : launched.files.write session.directory path
          (Text.Utf8.encode (plan.reportOf case expectations execution).text) with
      | error cause =>
          rw [conclude_unwritten started asked writes, Session.proceed_proceed, List.append_assoc]
          exact ⟨_, _, rfl, .unwritten starts captured asked writes⟩
      | ok after =>
          rw [conclude_reported started asked writes, Session.proceed_proceed, ← List.append_assoc,
            List.append_assoc (plan.heading case)]
          exact ⟨_, _, rfl, .reported starts captured asked writes⟩

/-- With the program started, its capture decides how the run goes on. -/
theorem execute_of_starts
    (starts : plan.Starts launch session.files session.directory case expectations request
      launched) :
    let started := session.proceed (plan.heading case ++ [.started request]) launched.files
    ∃ program, plan.command.head? = some program ∧
      plan.execute launch session =
        match Execution.ofCapture program plan.limit launched with
        | .done execution => plan.conclude case expectations execution started
        | .failed fatal => (started, .failed fatal)
        | .aborted => (started, .aborted)
        | .endless => (started, .endless) := by
  intro started
  have spawns : Spawns launch (session.proceed (plan.heading case) session.files).files
      (session.proceed (plan.heading case) session.files).directory case plan.command plan.limit
      request launched := starts.spawns
  obtain ⟨program, named, runs⟩ := runTarget_of_spawns spawns
  rw [Session.start_eq, Session.proceed_proceed] at runs
  refine ⟨program, named, ?_⟩
  rw [execute_of_prepared launch starts.prepared, announce_eq, runs]
  cases Execution.ofCapture program plan.limit launched <;> rfl

/-- Every run takes one of the courses. -/
theorem execute_course (plan : Plan) (launch : Launcher) (session : Session) :
    ∃ actions after, (plan.execute launch session).1 = session.proceed actions after ∧
      plan.Course launch session.files session.directory actions after
        (plan.execute launch session).2 := by
  cases prepared : plan.prepare session.files session.directory with
  | error fatal =>
      have refuses : plan.execute launch session = (session, .failed fatal) := by
        simp [execute, prepared]
      rw [refuses]
      exact ⟨[], session.files, by simp [Session.proceed], .refused prepared⟩
  | ok stated =>
      obtain ⟨case, expectations⟩ := stated
      rcases runTarget_cases launch case plan.command plan.limit
          (session.proceed (plan.heading case) session.files) with
        ⟨fatal, unstarted, fails⟩ | ⟨request, launched, spawns⟩
      · rw [execute_of_prepared launch prepared, announce_eq, fails]
        exact ⟨_, _, rfl, .unstarted prepared unstarted⟩
      · have starts := starts_of_prepared prepared spawns
        obtain ⟨program, named, goesOn⟩ := execute_of_starts starts
        rw [goesOn]
        cases ends : Execution.ofCapture program plan.limit launched with
        | done execution => exact conclude_course starts (Execution.ofCapture_eq_done_iff.mp ends)
        | failed fatal =>
            obtain ⟨fault, faulty, rfl⟩ := Execution.ofCapture_eq_failed_iff.mp ends
            exact ⟨_, _, rfl, .uncaptured starts named faulty⟩
        | aborted =>
            exact ⟨_, _, rfl, .aborted starts (Execution.ofCapture_eq_aborted_iff.mp ends)⟩
        | endless =>
            exact ⟨_, _, rfl, .endless starts (Execution.ofCapture_eq_endless_iff.mp ends)⟩

/-- A plan has a verdict exactly if all its stages succeed. -/
theorem execute_eq_done_iff :
    (plan.execute launch session).2 = .done outcome ↔
      plan.Concludes launch session.files session.directory outcome := by
  constructor
  · intro done
    obtain ⟨actions, after, -, course⟩ := plan.execute_course launch session
    rw [done] at course
    cases course with
    | unreported starts captured unasked =>
        exact ⟨_, _, _, _, _, starts, captured, rfl, by simp [Writes, unasked]⟩
    | reported starts captured asked writes =>
        refine ⟨_, _, _, _, _, starts, captured, rfl, fun path askedToo => ?_⟩
        rw [asked] at askedToo
        cases askedToo
        exact ⟨_, writes⟩
  · rintro ⟨case, expectations, request, launched, execution, starts, captured, rfl, writes⟩
    obtain ⟨program, -, goesOn⟩ := execute_of_starts starts
    rw [goesOn, Execution.ofCapture_eq_done_iff.mpr captured]
    let started := session.proceed (plan.heading case ++ [.started request]) launched.files
    cases asked : plan.report with
    | none => exact congrArg Prod.snd (conclude_unreported started asked)
    | some path =>
        obtain ⟨after, written⟩ := writes path asked
        exact congrArg Prod.snd (conclude_reported started asked written)

/-- A plan breaks off exactly if its program is started with a limit that leads beyond the end
of the clock. -/
theorem execute_eq_aborted_iff :
    (plan.execute launch session).2 = .aborted ↔
      plan.Overruns launch session.files session.directory := by
  constructor
  · intro breaksOff
    obtain ⟨actions, after, -, course⟩ := plan.execute_course launch session
    rw [breaksOff] at course
    cases course with
    | aborted starts overruns => exact ⟨_, _, _, _, starts, overruns⟩
  · rintro ⟨case, expectations, request, launched, starts, overruns⟩
    obtain ⟨program, -, goesOn⟩ := execute_of_starts starts
    rw [goesOn, Execution.ofCapture_eq_aborted_iff.mpr overruns]

/-- A plan is carried out for ever exactly if its program is started and never captured. -/
theorem execute_eq_endless_iff :
    (plan.execute launch session).2 = .endless ↔
      plan.Hangs launch session.files session.directory := by
  constructor
  · intro waits
    obtain ⟨actions, after, -, course⟩ := plan.execute_course launch session
    rw [waits] at course
    cases course with
    | endless starts endless => exact ⟨_, _, _, _, starts, endless⟩
  · rintro ⟨case, expectations, request, launched, starts, endless⟩
    obtain ⟨program, -, goesOn⟩ := execute_of_starts starts
    rw [goesOn, Execution.ofCapture_eq_endless_iff.mpr endless]

theorem printed_of_mem_heading {action : Action} (mem : action ∈ plan.heading case) :
    ∃ pieces, action = .printed pieces := by
  unfold heading at mem
  split at mem
  · exact ⟨_, List.mem_singleton.mp mem⟩
  · cases mem

theorem printed_of_mem_verdict {action : Action}
    (mem : action ∈ plan.verdict case expectations execution) :
    ∃ pieces, action = .printed pieces := by
  simp only [verdict, List.mem_cons, List.not_mem_nil, or_false] at mem
  rcases mem with rfl | rfl
  · exact ⟨_, rfl⟩
  · exact ⟨_, rfl⟩

theorem printed_of_mem_notice {action : Action} {path : String} (mem : action ∈ plan.notice path) :
    ∃ pieces, action = .printed pieces := by
  unfold notice at mem
  split at mem
  · exact ⟨_, List.mem_singleton.mp mem⟩
  · cases mem

/-- A run itself answers no command line and does not give up by itself. -/
theorem Course.cases_of_mem {actions : List Action} {result : Result Outcome} {action : Action}
    (course : plan.Course launch files directory actions after result) (mem : action ∈ actions) :
    (∃ pieces, action = .printed pieces) ∨ (∃ request, action = .started request) ∨
      ∃ path report, action = .reported path report := by
  cases course with
  | refused => cases mem
  | unstarted => exact Or.inl (printed_of_mem_heading mem)
  | uncaptured | aborted | endless =>
      rcases List.mem_append.mp mem with mem | mem
      · exact Or.inl (printed_of_mem_heading mem)
      · exact Or.inr (Or.inl ⟨_, List.mem_singleton.mp mem⟩)
  | unreported | unwritten =>
      simp only [List.mem_append, List.mem_cons] at mem
      rcases mem with mem | rfl | mem
      · exact Or.inl (printed_of_mem_heading mem)
      · exact Or.inr (Or.inl ⟨_, rfl⟩)
      · exact Or.inl (printed_of_mem_verdict mem)
  | reported =>
      simp only [List.mem_append, List.mem_cons] at mem
      rcases mem with (mem | rfl | mem) | rfl | mem
      · exact Or.inl (printed_of_mem_heading mem)
      · exact Or.inr (Or.inl ⟨_, rfl⟩)
      · exact Or.inl (printed_of_mem_verdict mem)
      · exact Or.inr (Or.inr ⟨_, _, rfl⟩)
      · exact Or.inl (printed_of_mem_notice mem)

theorem Course.ne_emptyCommand {actions : List Action} {fatal : FatalError}
    (course : plan.Course launch files directory actions after (.failed fatal))
    (command : plan.command ≠ []) : fatal ≠ .emptyCommand := by
  rintro rfl
  cases course with
  | refused fails => cases concern_of_prepare fails
  | unstarted prepared unstarted =>
      generalize plan.command = words at command unstarted
      cases unstarted with
      | nothing => exact command rfl
      | unresolved fails => cases eq_programNotFound_of_resolveProgram fails

end Plan

end CaseHarness
