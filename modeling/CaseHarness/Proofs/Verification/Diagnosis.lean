import CaseHarness.Proofs.Expectations
import CaseHarness.Proofs.Verification.Failures

/-!
# What the failures of a run point at

The failures of a run are one timeout, one wrong code or any number of missed checks, and
never a mixture of these.  What decides between them is said of the run and the expectations
alone.  A missed check carries the number of the line of the source on which it stands.
-/

namespace CaseHarness.Verification

open Expectations (StandsIn StatedBy)

/-- The failures that belong to a run of a test case with this source. -/
inductive Diagnosis (source : String) (expectations : Expectations) (execution : Execution) :
    List Failure → Prop
  | outOfTime {milliseconds : Nat} (termination : execution.termination = .timedOut milliseconds) :
      Diagnosis source expectations execution [.timedOut milliseconds]
  | wrongCode {code : Int} {failure : Failure}
      (effective : execution.termination.effectiveCode? = some code)
      (wrong : WrongCode expectations code failure) :
      Diagnosis source expectations execution [failure]
  | missed {code : Int} {checks : List Check}
      (effective : execution.termination.effectiveCode? = some code)
      (abortMet : expectations.abort = true → code ≠ 0)
      (codeMet : expectations.abort = false → code = expectations.exitCode)
      (searched : misses expectations.checks execution.lines =
        checks.map fun check => .checkNotFound check.line check.pattern)
      (increasing : checks.Pairwise fun first second => first.line < second.line)
      (standing : ∀ check ∈ checks, StandsIn (Text.lines source) check) :
      Diagnosis source expectations execution
        (checks.map fun check => .checkNotFound check.line check.pattern)

variable {source : String} {expectations : Expectations} {execution : Execution}
  {failures : List Failure} {failure : Failure}

/-- A failure that is not about a check stands alone. -/
theorem Diagnosis.eq_singleton (diagnosis : Diagnosis source expectations execution failures)
    (mem : failure ∈ failures) (noCheck : failure.check? = none) : failures = [failure] := by
  cases diagnosis with
  | outOfTime | wrongCode => rw [List.mem_singleton.mp mem]
  | missed =>
      obtain ⟨check, -, rfl⟩ := List.mem_map.mp mem
      cases noCheck

/-- A failure about the code is one that is wrong with the code of the run. -/
theorem Diagnosis.wrongCode_of_mem (diagnosis : Diagnosis source expectations execution failures)
    (mem : failure ∈ failures) (noCheck : failure.check? = none)
    (inTime : ∀ milliseconds, failure ≠ .timedOut milliseconds) :
    ∃ code, WrongCode expectations code failure := by
  cases diagnosis with
  | outOfTime => exact absurd (List.mem_singleton.mp mem) (inTime _)
  | wrongCode _ wrong =>
      rw [List.mem_singleton.mp mem]
      exact ⟨_, wrong⟩
  | missed =>
      obtain ⟨check, -, rfl⟩ := List.mem_map.mp mem
      cases noCheck

theorem Diagnosis.nonZeroExit_zero_notMem
    (diagnosis : Diagnosis source expectations execution failures) :
    .nonZeroExit 0 ∉ failures := by
  intro mem
  obtain ⟨code, wrong⟩ := diagnosis.wrongCode_of_mem mem rfl (by simp)
  cases wrong with
  | nonZeroExit noAbort expected nonzero => exact nonzero rfl

theorem Diagnosis.exitCodeMismatch_self_notMem
    (diagnosis : Diagnosis source expectations execution failures) (code : Int) :
    .exitCodeMismatch code code ∉ failures := by
  intro mem
  obtain ⟨actual, wrong⟩ := diagnosis.wrongCode_of_mem mem rfl (by simp)
  generalize mismatchEq : Failure.exitCodeMismatch code code = mismatch at wrong
  cases wrong with
  | unexpectedSuccess => cases mismatchEq
  | nonZeroExit => cases mismatchEq
  | exitCodeMismatch noAbort expected differs =>
      injection mismatchEq with actualEq expectedEq
      exact differs (actualEq.symm.trans expectedEq)

/-- Whatever way the failures come about in, they belong to the run. -/
theorem Judges.diagnosis (judges : Judges expectations execution failures)
    (states : StatedBy (Text.lines source) expectations) :
    Diagnosis source expectations execution failures := by
  cases judges with
  | outOfTime termination => exact .outOfTime termination
  | wrongCode effective wrong => exact .wrongCode effective (codeFailure?_eq_some_iff.mp wrong)
  | searched effective fine =>
      obtain ⟨abortMet, codeMet⟩ := codeFailure?_eq_none_iff.mp fine
      obtain ⟨missed, sublist, missesEq⟩ :=
        exists_sublist_misses expectations.checks execution.lines
      rw [missesEq]
      exact .missed effective abortMet (fun noAbort => codeMet (by simp [noAbort])) missesEq
        (states.increasing.sublist sublist)
        fun check mem => (states.mem_checks_iff check).mp (sublist.mem mem)

/-- The failures of a run are those that belong to it.  One about the time or the code stands
alone; one about a missed check points at the line of the source that holds the check. -/
theorem verify_diagnoses (directory name source : String) (expectations : Expectations)
    (execution : Execution)
    (stated : Expectations.ofCase (TestCase.ofSource directory name source) = .ok expectations) :
    Diagnosis source expectations execution (verify expectations execution).failures ∧
      (∀ failure ∈ (verify expectations execution).failures, failure.check? = none →
        (verify expectations execution).failures = [failure]) ∧
      .nonZeroExit 0 ∉ (verify expectations execution).failures ∧
      ∀ code, .exitCodeMismatch code code ∉ (verify expectations execution).failures := by
  obtain ⟨-, states⟩ := Expectations.ofCase_eq_ok_iff.mp stated
  have diagnosis := (judges_verify expectations execution).diagnosis states
  exact ⟨diagnosis, fun _ mem noCheck => diagnosis.eq_singleton mem noCheck,
    diagnosis.nonZeroExit_zero_notMem, diagnosis.exitCodeMismatch_self_notMem⟩

/-- A check that only a line taken by an earlier one contains is missed, and its own line is
named. -/
theorem diagnoses_check_on_taken_line :
    Expectations.ofCase (TestCase.ofSource "/work" "case.tcf"
        "# EXIT -9\n# CHECK: a\r\n\n# CHECK:  b") =
      .ok ⟨[⟨2, "a"⟩, ⟨4, " b"⟩], -9, false⟩ ∧
    (verify ⟨[⟨2, "a"⟩, ⟨4, " b"⟩], -9, false⟩ ⟨"a b\nb", .signaled 9, {}⟩).failures =
      [.checkNotFound 4 " b"] ∧
    Diagnosis "# EXIT -9\n# CHECK: a\r\n\n# CHECK:  b" ⟨[⟨2, "a"⟩, ⟨4, " b"⟩], -9, false⟩
      ⟨"a b\nb", .signaled 9, {}⟩ [.checkNotFound 4 " b"] := by
  have stated : Expectations.ofCase (TestCase.ofSource "/work" "case.tcf"
      "# EXIT -9\n# CHECK: a\r\n\n# CHECK:  b") =
      .ok ⟨[⟨2, "a"⟩, ⟨4, " b"⟩], -9, false⟩ := by
    decide
  have failures : (verify ⟨[⟨2, "a"⟩, ⟨4, " b"⟩], -9, false⟩
      ⟨"a b\nb", .signaled 9, {}⟩).failures = [.checkNotFound 4 " b"] := by
    decide
  obtain ⟨diagnosis, -⟩ :=
    verify_diagnoses _ _ _ _ ⟨"a b\nb", .signaled 9, {}⟩ stated
  rw [failures] at diagnosis
  exact ⟨stated, failures, diagnosis⟩

end CaseHarness.Verification
