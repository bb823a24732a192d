import CaseHarness.Proofs.Expectations
import CaseHarness.Run.Execute
import Mathlib.Data.List.Basic

/-!
# The stages of a run

A run goes through its stages in order: a test case is found and states expectations, the
program is resolved and started, its output is captured, and the report is written.  For each
stage it is said here when it succeeds and what it hands on, in terms of the files and of the
launcher alone.
-/

namespace CaseHarness

namespace TestCase

/-- The path names a regular file, and the case is made of what can be read at the place where
the file really stands. -/
def Found (files : Tree) (directory : Location) (path : String) (case : TestCase) : Prop :=
  files.namesFile directory path = true ∧
    ∃ folder name content, files.locate directory path = .ok (folder ++ [name]) ∧
      files.read directory (joinPath (Location.path folder) name) = .ok content ∧
      case = ofSource (Location.path folder) name (Text.Utf8.decode content)

theorem load_eq_ok_iff {files : Tree} {directory : Location} {path : String} {case : TestCase} :
    load files directory path = .ok case ↔ Found files directory path case := by
  constructor
  · intro loads
    unfold load locate at loads
    split at loads
    · cases loads
    · next folderPath name located =>
      split at located
      · next isFile =>
        split at located
        · cases located
        · next location locationEq =>
          split at located
          · cases located
          · next last lastEq =>
            cases located
            split at loads
            · cases loads
            · next content contentEq =>
              cases loads
              have whole : location.dropLast ++ [name] = location :=
                List.dropLast_append_getLast? name lastEq
              exact ⟨isFile, location.dropLast, name, content, by rw [whole]; exact locationEq,
                contentEq, rfl⟩
      · cases located
  · rintro ⟨isFile, folder, name, content, located, contentEq, rfl⟩
    have locateEq : locate files directory path = .ok (Location.path folder, name) := by
      simp [locate, isFile, located]
    simp [load, locateEq, contentEq]

end TestCase

/-- The program of a command is resolved, and a request for it with the words of the test case
is granted. -/
structure Spawns (launch : Launcher) (files : Tree) (directory : Location) (case : TestCase)
    (command : List String) (limit : Option Duration) (request : Request)
    (launched : Launched) : Prop where
  resolved : ∃ program, command.head? = some program ∧
    resolveProgram files directory program = .ok request.program
  words : request.arguments = case.arguments command.tail
  place : request.directory = case.directory
  limited : request.limit = limit
  granted : launch files request = .ok launched

/-- Why no program is started for a command. -/
inductive Unstarted (launch : Launcher) (files : Tree) (directory : Location) (case : TestCase)
    (limit : Option Duration) : List String → FatalError → Prop
  | nothing : Unstarted launch files directory case limit [] .emptyCommand
  | unresolved {program : String} {others : List String} {fatal : FatalError}
      (fails : resolveProgram files directory program = .error fatal) :
      Unstarted launch files directory case limit (program :: others) fatal
  | refused {program path : String} {others : List String} {fault : FileError}
      (resolved : resolveProgram files directory program = .ok path)
      (refusal : launch files ⟨path, case.arguments others, case.directory, limit⟩ =
        .error fault) :
      Unstarted launch files directory case limit (program :: others)
        (.spawnFailed program (.notStarted fault))

/-- The clock can show the end of the time of a started program, and its output is captured
without a fault; the execution tells what was captured. -/
def Execution.Captured (limit : Option Duration) (launched : Launched)
    (execution : Execution) : Prop :=
  launched.overruns limit = false ∧ ∃ ending bytes,
    (Capture.run limit.isSome launched.events).result? = some (.ok (ending, bytes)) ∧
      execution =
        ⟨Text.Utf8.decode bytes,
          observedTermination limit (.ofNanoseconds launched.elapsed) ending,
          .ofNanoseconds launched.elapsed⟩

/-- The capture of a started program fails. -/
def Launched.Faulty (limit : Option Duration) (launched : Launched) (fault : CaptureFault) :
    Prop :=
  launched.overruns limit = false ∧
    (Capture.run limit.isSome launched.events).result? = some (.error fault)

/-- The capture of a started program comes to no end. -/
def Launched.Endless (limit : Option Duration) (launched : Launched) : Prop :=
  launched.overruns limit = false ∧ (Capture.run limit.isSome launched.events).result? = none

section Target

variable {launch : Launcher} {case : TestCase} {command : List String} {limit : Option Duration}
  {session : Session} {request : Request} {launched : Launched} {execution : Execution}
  {program : String}

theorem Execution.ofCapture_eq_done_iff :
    ofCapture program limit launched = .done execution ↔ Captured limit launched execution := by
  unfold ofCapture Captured
  split
  · next overruns => simp [overruns]
  · next inTime =>
    dsimp only
    split
    · next resultEq => simp [resultEq]
    · next resultEq => simp [resultEq]
    · next ending bytes resultEq => simp [inTime, resultEq, eq_comm]

theorem Execution.ofCapture_eq_aborted_iff :
    ofCapture program limit launched = .aborted ↔ launched.overruns limit = true := by
  unfold ofCapture
  split
  · next overruns => simp [overruns]
  · next inTime =>
    dsimp only
    split <;> simp [inTime]

theorem Execution.ofCapture_eq_endless_iff :
    ofCapture program limit launched = .endless ↔ launched.Endless limit := by
  unfold ofCapture Launched.Endless
  split
  · next overruns => simp [overruns]
  · next inTime =>
    dsimp only
    split
    · next resultEq => simp [inTime, resultEq]
    · next resultEq => simp [resultEq]
    · next resultEq => simp [resultEq]

theorem Execution.ofCapture_eq_failed_iff {fatal : FatalError} :
    ofCapture program limit launched = .failed fatal ↔
      ∃ fault, launched.Faulty limit fault ∧ fatal = .spawnFailed program (.notCaptured fault) := by
  unfold ofCapture Launched.Faulty
  split
  · next overruns => simp [overruns]
  · next inTime =>
    dsimp only
    split
    · next resultEq => simp [resultEq]
    · next resultEq => simp [inTime, resultEq, eq_comm]
    · next resultEq => simp [resultEq]

/-- The session in which a program has been started and has changed the files. -/
def Session.start (session : Session) (request : Request) (launched : Launched) : Session :=
  { session.perform (.started request) with files := launched.files }

theorem runTarget_of_spawns
    (spawns : Spawns launch session.files session.directory case command limit request launched) :
    ∃ program, command.head? = some program ∧
      runTarget launch case command limit session =
        (session.start request launched, Execution.ofCapture program limit launched) := by
  obtain ⟨⟨program, headEq, resolved⟩, words, place, limited, granted⟩ := spawns
  cases command with
  | nil => cases headEq
  | cons first others =>
      cases headEq
      have requestEq : Request.mk request.program (case.arguments others) case.directory limit =
          request := by
        rw [← place, ← limited]
        exact congrArg (Request.mk request.program · request.directory request.limit) words.symm
      refine ⟨program, rfl, ?_⟩
      simp only [runTarget, resolved, requestEq, granted]
      rfl

/-- Without a program that starts, the run fails and nothing has happened. -/
theorem runTarget_cases (launch : Launcher) (case : TestCase) (command : List String)
    (limit : Option Duration) (session : Session) :
    (∃ fatal, Unstarted launch session.files session.directory case limit command fatal ∧
        runTarget launch case command limit session = (session, .failed fatal)) ∨
      ∃ request launched,
        Spawns launch session.files session.directory case command limit request launched := by
  unfold runTarget
  split
  · exact Or.inl ⟨_, .nothing, rfl⟩
  · next program others =>
    split
    · next fails => exact Or.inl ⟨_, .unresolved fails, rfl⟩
    · next resolvedProgram resolved =>
      dsimp only
      split
      · next refusal => exact Or.inl ⟨_, .refused resolved refusal, rfl⟩
      · next launched granted =>
        exact Or.inr ⟨_, launched, ⟨⟨program, rfl, resolved⟩, rfl, rfl, rfl, granted⟩⟩

theorem runTarget_eq_done_iff {after : Session} :
    runTarget launch case command limit session = (after, .done execution) ↔
      ∃ request launched,
        Spawns launch session.files session.directory case command limit request launched ∧
          execution.Captured limit launched ∧ after = session.start request launched := by
  constructor
  · intro runs
    rcases runTarget_cases launch case command limit session with ⟨fatal, -, fails⟩ |
      ⟨request, launched, spawns⟩
    · rw [fails] at runs
      cases runs
    · obtain ⟨program, -, started⟩ := runTarget_of_spawns spawns
      rw [started, Prod.mk.injEq, Execution.ofCapture_eq_done_iff] at runs
      exact ⟨request, launched, spawns, runs.2, runs.1.symm⟩
  · rintro ⟨request, launched, spawns, captured, rfl⟩
    obtain ⟨program, -, started⟩ := runTarget_of_spawns spawns
    rw [started, Execution.ofCapture_eq_done_iff.mpr captured]

end Target

namespace Plan

variable {plan : Plan} {launch : Launcher} {session : Session} {case : TestCase}
  {expectations : Expectations} {outcome : Outcome}

theorem prepare_eq_ok_iff {files : Tree} {directory : Location} :
    plan.prepare files directory = .ok (case, expectations) ↔
      TestCase.Found files directory plan.testCase case ∧
        Expectations.ofCase case = .ok expectations := by
  rw [← TestCase.load_eq_ok_iff]
  unfold prepare
  split
  · next fails => simp [fails]
  · next found loads =>
    rw [loads, Except.ok.injEq]
    split
    · next faulty =>
      simp only [reduceCtorEq, false_iff, not_and]
      rintro rfl
      simp [faulty]
    · next stated =>
      simp only [Except.ok.injEq, Prod.mk.injEq]
      constructor
      · rintro ⟨rfl, rfl⟩
        exact ⟨rfl, stated⟩
      · rintro ⟨rfl, statedToo⟩
        rw [stated] at statedToo
        cases statedToo
        exact ⟨rfl, rfl⟩

/-- The report is written if the plan asks for one. -/
def Writes (plan : Plan) (files : Tree) (directory : Location) (report : Report) : Prop :=
  ∀ path, plan.report = some path →
    ∃ after, files.write directory path (Text.Utf8.encode report.text) = .ok after

/-- The report of a run. -/
def reportOf (plan : Plan) (case : TestCase) (expectations : Expectations)
    (execution : Execution) : Report :=
  .ofRun case plan.command expectations execution (Verification.verify expectations execution)

/-- All that has to succeed until the program runs: the test case is found, its exit lines are
well formed and so it states expectations, and the program is started. -/
structure Starts (plan : Plan) (launch : Launcher) (files : Tree) (directory : Location)
    (case : TestCase) (expectations : Expectations) (request : Request)
    (launched : Launched) : Prop where
  found : TestCase.Found files directory plan.testCase case
  wellFormed : ∀ value ∈ Expectations.restsAfter Directive.exitOpening case.lines,
    (Directive.exitValue? value).isSome = true
  stated : Expectations.ofCase case = .ok expectations
  spawns : Spawns launch files directory case plan.command plan.limit request launched

/-- All that has to succeed for a verdict, and the verdict. -/
def Concludes (plan : Plan) (launch : Launcher) (files : Tree) (directory : Location)
    (outcome : Outcome) : Prop :=
  ∃ case expectations request launched execution,
    plan.Starts launch files directory case expectations request launched ∧
      execution.Captured plan.limit launched ∧
      outcome = Verification.verify expectations execution ∧
      plan.Writes launched.files directory (plan.reportOf case expectations execution)

/-- The program is started with a limit that leads beyond the end of the clock. -/
def Overruns (plan : Plan) (launch : Launcher) (files : Tree) (directory : Location) : Prop :=
  ∃ case expectations request launched,
    plan.Starts launch files directory case expectations request launched ∧
      launched.overruns plan.limit = true

/-- The program is started, and its capture comes to no end. -/
def Hangs (plan : Plan) (launch : Launcher) (files : Tree) (directory : Location) : Prop :=
  ∃ case expectations request launched,
    plan.Starts launch files directory case expectations request launched ∧
      launched.Endless plan.limit

section Retag

variable {files : Tree} {directory : Location} (verbose : Bool) (tag : String)

theorem Starts.retag {request : Request} {launched : Launched}
    (starts : plan.Starts launch files directory case expectations request launched) :
    ({ plan with verbose := verbose, tag := tag } : Plan).Starts launch files directory case
      expectations request launched :=
  ⟨starts.found, starts.wellFormed, starts.stated, starts.spawns⟩

/-- Header and language have no part in the verdict. -/
theorem Concludes.retag (concludes : plan.Concludes launch files directory outcome) :
    ({ plan with verbose := verbose, tag := tag } : Plan).Concludes launch files directory
      outcome := by
  obtain ⟨case, expectations, request, launched, execution, starts, captured, rfl, writes⟩ :=
    concludes
  exact ⟨case, expectations, request, launched, execution, starts.retag verbose tag, captured, rfl,
    writes⟩

theorem Overruns.retag (overruns : plan.Overruns launch files directory) :
    ({ plan with verbose := verbose, tag := tag } : Plan).Overruns launch files directory := by
  obtain ⟨case, expectations, request, launched, starts, late⟩ := overruns
  exact ⟨case, expectations, request, launched, starts.retag verbose tag, late⟩

theorem Hangs.retag (hangs : plan.Hangs launch files directory) :
    ({ plan with verbose := verbose, tag := tag } : Plan).Hangs launch files directory := by
  obtain ⟨case, expectations, request, launched, starts, endless⟩ := hangs
  exact ⟨case, expectations, request, launched, starts.retag verbose tag, endless⟩

end Retag

theorem execute_of_prepared (launch : Launcher)
    (prepared : plan.prepare session.files session.directory = .ok (case, expectations)) :
    plan.execute launch session =
      match runTarget launch case plan.command plan.limit (plan.announce case session) with
      | (after, .done execution) => plan.conclude case expectations execution after
      | (after, .failed fatal) => (after, .failed fatal)
      | (after, .aborted) => (after, .aborted)
      | (after, .endless) => (after, .endless) := by
  unfold execute
  split
  · next fatal fails =>
    rw [prepared] at fails
    cases fails
  · next loads =>
    rw [prepared] at loads
    cases loads
    rfl

theorem starts_of_prepared {request : Request} {launched : Launched}
    (prepared : plan.prepare session.files session.directory = .ok (case, expectations))
    (spawns : Spawns launch session.files session.directory case plan.command plan.limit request
      launched) :
    plan.Starts launch session.files session.directory case expectations request launched := by
  obtain ⟨found, stated⟩ := prepare_eq_ok_iff.mp prepared
  exact ⟨found, Expectations.exists_ofCase_eq_ok_iff.mp ⟨expectations, stated⟩, stated, spawns⟩

theorem Starts.prepared {request : Request} {launched : Launched}
    (starts : plan.Starts launch session.files session.directory case expectations request
      launched) :
    plan.prepare session.files session.directory = .ok (case, expectations) :=
  prepare_eq_ok_iff.mpr ⟨starts.found, starts.stated⟩

end Plan

end CaseHarness
