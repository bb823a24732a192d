import CaseHarness.Verification

/-!
# The failures of a run

A verdict comes about in one of three ways: the time was over, the code is wrong, or the
checks have been searched for.  From these ways it is read what a failure says about the run
that it is found in.
-/

namespace CaseHarness

/-- The check that a failure reports as missed. -/
def Failure.check? : Failure → Option Check
  | checkNotFound line pattern => some ⟨line, pattern⟩
  | nonZeroExit _ | exitCodeMismatch .. | unexpectedSuccess | timedOut _ => none

namespace Verification

variable {expectations : Expectations} {execution : Execution} {failure : Failure}
  {failures : List Failure}

/-- How the failures of a run come about. -/
inductive Judges (expectations : Expectations) (execution : Execution) : List Failure → Prop
  | outOfTime {milliseconds : Nat} (termination : execution.termination = .timedOut milliseconds) :
      Judges expectations execution [.timedOut milliseconds]
  | wrongCode {code : Int} {failure : Failure}
      (effective : execution.termination.effectiveCode? = some code)
      (wrong : codeFailure? expectations code = some failure) :
      Judges expectations execution [failure]
  | searched {code : Int} (effective : execution.termination.effectiveCode? = some code)
      (fine : codeFailure? expectations code = none) :
      Judges expectations execution (misses expectations.checks execution.lines)

theorem judges_verify (expectations : Expectations) (execution : Execution) :
    Judges expectations execution (verify expectations execution).failures := by
  unfold verify
  cases terminationEq : execution.termination with
  | timedOut milliseconds => exact .outOfTime terminationEq
  | exited code | signaled signal =>
      dsimp only [Termination.effectiveCode?, Option.getD_some]
      split
      · next wrong => exact .wrongCode (by rw [terminationEq]; rfl) wrong
      · next fine => exact .searched (by rw [terminationEq]; rfl) fine

/-- What is wrong with a code: zero where an abort is expected, another code than zero, or
another code than the one that is named. -/
inductive WrongCode (expectations : Expectations) (code : Int) : Failure → Prop
  | unexpectedSuccess (aborts : expectations.abort = true) (zero : code = 0) :
      WrongCode expectations code .unexpectedSuccess
  | nonZeroExit (noAbort : expectations.abort = false) (expected : expectations.exitCode = 0)
      (nonzero : code ≠ 0) : WrongCode expectations code (.nonZeroExit code)
  | exitCodeMismatch (noAbort : expectations.abort = false)
      (expected : expectations.exitCode ≠ 0) (differs : code ≠ expectations.exitCode) :
      WrongCode expectations code (.exitCodeMismatch code expectations.exitCode)

theorem codeFailure?_eq_some_iff {code : Int} :
    codeFailure? expectations code = some failure ↔ WrongCode expectations code failure := by
  constructor
  · intro wrong
    unfold codeFailure? at wrong
    split at wrong
    · next aborts =>
      split at wrong <;> cases wrong
      next zero => exact .unexpectedSuccess aborts zero
    · next noAbort =>
      have noAbortEq := Bool.eq_false_iff.mpr noAbort
      split at wrong
      · cases wrong
      · next differs =>
        split at wrong <;> cases wrong
        · next expected => exact .nonZeroExit noAbortEq expected (expected ▸ differs)
        · next expected => exact .exitCodeMismatch noAbortEq expected differs
  · intro wrong
    cases wrong with
    | unexpectedSuccess aborts zero => simp [codeFailure?, aborts, zero]
    | nonZeroExit noAbort expected nonzero => simp [codeFailure?, noAbort, expected, nonzero]
    | exitCodeMismatch noAbort expected differs =>
        simp [codeFailure?, noAbort, expected, differs]

theorem codeFailure?_eq_some {code : Int} (wrong : codeFailure? expectations code = some failure) :
    failure = .unexpectedSuccess ∨ failure = .nonZeroExit code ∨
      failure = .exitCodeMismatch code expectations.exitCode := by
  cases codeFailure?_eq_some_iff.mp wrong with
  | unexpectedSuccess => exact Or.inl rfl
  | nonZeroExit => exact Or.inr (Or.inl rfl)
  | exitCodeMismatch => exact Or.inr (Or.inr rfl)

theorem codeFailure?_eq_none_iff {code : Int} :
    codeFailure? expectations code = none ↔
      (expectations.abort = true → code ≠ 0) ∧
        (¬ expectations.abort = true → code = expectations.exitCode) := by
  unfold codeFailure?
  split
  · next aborts => simp [aborts]
  · next notAborts =>
    split
    · next same => simp [notAborts, same]
    · next differs =>
      split <;> simp [notAborts, differs]

/-- Checks are missed in the order in which they stand. -/
theorem exists_sublist_misses (checks : List Check) (lines : List String) :
    ∃ missed : List Check, missed.Sublist checks ∧
      misses checks lines = missed.map fun check => .checkNotFound check.line check.pattern := by
  induction checks generalizing lines with
  | nil => exact ⟨[], .slnil, rfl⟩
  | cons check checks ih =>
      unfold misses
      split
      · next rest _ =>
        obtain ⟨missed, sublist, missesEq⟩ := ih rest
        exact ⟨missed, sublist.cons check, missesEq⟩
      · obtain ⟨missed, sublist, missesEq⟩ := ih lines
        exact ⟨check :: missed, sublist.cons_cons check, by rw [missesEq, List.map_cons]⟩

/-- What a failure says about the run that it is found in. -/
theorem Judges.cases_of_mem (judges : Judges expectations execution failures)
    (mem : failure ∈ failures) :
    (∃ milliseconds, failure = .timedOut milliseconds ∧
        execution.termination = .timedOut milliseconds) ∨
      ∃ code, execution.termination.effectiveCode? = some code ∧
        (failure = .unexpectedSuccess ∨ failure = .nonZeroExit code ∨
          failure = .exitCodeMismatch code expectations.exitCode ∨
          ∃ check ∈ expectations.checks, failure = .checkNotFound check.line check.pattern) := by
  cases judges with
  | outOfTime termination => exact Or.inl ⟨_, List.mem_singleton.mp mem, termination⟩
  | @wrongCode code wrongFailure effective wrong =>
      rw [List.mem_singleton.mp mem]
      rcases codeFailure?_eq_some wrong with success | nonZero | mismatch
      · exact Or.inr ⟨code, effective, Or.inl success⟩
      · exact Or.inr ⟨code, effective, Or.inr (Or.inl nonZero)⟩
      · exact Or.inr ⟨code, effective, Or.inr (Or.inr (Or.inl mismatch))⟩
  | @searched code effective fine =>
      obtain ⟨missed, sublist, missesEq⟩ :=
        exists_sublist_misses expectations.checks execution.lines
      rw [missesEq, List.mem_map] at mem
      obtain ⟨check, checkMem, rfl⟩ := mem
      exact Or.inr ⟨code, effective, Or.inr (Or.inr (Or.inr ⟨check, sublist.mem checkMem, rfl⟩))⟩

theorem Judges.termination_of_mem (judges : Judges expectations execution failures)
    {milliseconds : Nat} (mem : .timedOut milliseconds ∈ failures) :
    execution.termination = .timedOut milliseconds := by
  rcases judges.cases_of_mem mem with ⟨_, same, termination⟩ |
    ⟨code, -, success | nonZero | mismatch | ⟨check, -, missed⟩⟩
  · cases same
    exact termination
  · cases success
  · cases nonZero
  · cases mismatch
  · cases missed

theorem Judges.timedOut_iff (judges : Judges expectations execution failures)
    {milliseconds : Nat} :
    failures = [.timedOut milliseconds] ↔ execution.termination = .timedOut milliseconds := by
  constructor
  · rintro rfl
    exact judges.termination_of_mem List.mem_cons_self
  · intro outOfTime
    cases judges with
    | outOfTime termination =>
        rw [outOfTime] at termination
        cases termination
        rfl
    | wrongCode effective => simp [outOfTime, Termination.effectiveCode?] at effective
    | searched effective => simp [outOfTime, Termination.effectiveCode?] at effective

/-- A failure that names a code names the code of the run. -/
theorem Judges.effectiveCode?_of_nonZeroExit (judges : Judges expectations execution failures)
    {code : Int} (mem : .nonZeroExit code ∈ failures) :
    execution.termination.effectiveCode? = some code := by
  rcases judges.cases_of_mem mem with ⟨_, other, -⟩ |
    ⟨actual, effective, success | same | mismatch | ⟨check, -, missed⟩⟩
  · cases other
  · cases success
  · cases same
    exact effective
  · cases mismatch
  · cases missed

theorem Judges.effectiveCode?_of_exitCodeMismatch
    (judges : Judges expectations execution failures) {code expected : Int}
    (mem : .exitCodeMismatch code expected ∈ failures) :
    execution.termination.effectiveCode? = some code := by
  rcases judges.cases_of_mem mem with ⟨_, other, -⟩ |
    ⟨actual, effective, success | nonZero | same | ⟨check, -, missed⟩⟩
  · cases other
  · cases success
  · cases nonZero
  · cases same
    exact effective
  · cases missed

/-- The missed checks are checks of the test case in their order. -/
theorem Judges.sublist_checks (judges : Judges expectations execution failures) :
    (failures.filterMap Failure.check?).Sublist expectations.checks := by
  cases judges with
  | outOfTime => exact List.nil_sublist _
  | wrongCode effective wrong =>
      rcases codeFailure?_eq_some wrong with rfl | rfl | rfl
      all_goals exact List.nil_sublist _
  | searched =>
      obtain ⟨missed, sublist, missesEq⟩ :=
        exists_sublist_misses expectations.checks execution.lines
      have same :
          (misses expectations.checks execution.lines).filterMap Failure.check? = missed := by
        rw [missesEq, List.filterMap_map]
        exact List.filterMap_some
      rw [same]
      exact sublist

end Verification

end CaseHarness
