import CaseHarness.Proofs.Expectations
import CaseHarness.Proofs.Verification.Failures
import CaseHarness.Proofs.Verification.Misses

/-!
# When a test case passes

A run passes exactly if its time was not over, it ended with a code that the lines of
the test case accept, and the check patterns can all be placed on the lines of the
output in order.
-/

namespace CaseHarness.Verification

/-- The code meets what the lines of a test case ask for: it is not zero if they state an
abort, and otherwise it is the value of the last exit line, or zero without one. -/
def CodeAccepted (lines : List String) (code : Int) : Prop :=
  (Expectations.StatesAbort lines → code ≠ 0) ∧
    (¬ Expectations.StatesAbort lines → Expectations.lastExitCode? 0 lines = some code)

/-- The patterns of the check lines, in file order. -/
def checkPatterns (lines : List String) : List String :=
  (Expectations.restsAfter Directive.checkOpening lines).map String.ofList

/-- No check is missed exactly if all patterns can be placed. -/
theorem misses_eq_nil_iff (checks : List Check) (lines : List String) :
    misses checks lines = [] ↔
      Placeable (checks.map Check.pattern) lines {index | index < checks.length} := by
  have missesEq := misses_eq_filter_from [] checks lines rfl
  simp only [List.map_nil, linesAfter, List.length_nil, List.nil_append] at missesEq
  rw [missesEq, List.map_eq_nil_iff, List.filter_eq_nil_iff]
  constructor
  · intro noMiss
    have allMatched : ∀ index < checks.length,
        Matched (checks.map Check.pattern) lines index := by
      intro index bound
      have member : (checks[index], index) ∈ checks.zipIdx :=
        List.mem_zipIdx_iff_getElem?.mpr (List.getElem?_eq_getElem bound)
      simpa using noMiss _ member
    obtain ⟨place, placement, -⟩ := exists_least_placement (checks.map Check.pattern) lines
    exact ⟨place, placement.mono allMatched⟩
  · rintro placeable ⟨check, index⟩ member
    have bound : index < checks.length :=
      (List.getElem?_eq_some_iff.mp (List.mem_zipIdx_iff_getElem?.mp member)).1
    have matched : Matched (checks.map Check.pattern) lines index := by
      rw [matched_iff_placeable]
      apply placeable.mono
      rintro other (rfl | ⟨less, -⟩)
      · exact bound
      · exact less.trans bound
    simpa using matched

/-- A run passes exactly if it has a code, with which nothing is wrong, and no check is
missed. -/
theorem passed_verify_iff {expectations : Expectations} {execution : Execution} :
    (verify expectations execution).passed = true ↔
      ∃ code, execution.termination.effectiveCode? = some code ∧
        codeFailure? expectations code = none ∧
        misses expectations.checks execution.lines = [] := by
  cases terminationEq : execution.termination with
  | timedOut milliseconds =>
      simp [verify, terminationEq, Outcome.passed, Termination.effectiveCode?]
  | exited code | signaled signal =>
      simp only [verify, terminationEq, Termination.effectiveCode?, Option.getD_some,
        Option.some.injEq, exists_eq_left']
      split
      · next failure failed => simp [Outcome.passed, failed]
      · next fine => simp [Outcome.passed, fine]

theorem isTimeout_eq_false_iff {termination : Termination} :
    termination.isTimeout = false ↔ ∃ code, termination.effectiveCode? = some code := by
  cases termination <;> simp [Termination.isTimeout, Termination.effectiveCode?]

/-- A run passes exactly if its time was not over, its code is accepted, and the patterns
of the check lines can be assigned in file order to lines of the output, each to a line
behind the one before. -/
theorem verify_passed_iff (directory name source : String) (expectations : Expectations)
    (execution : Execution)
    (stated : Expectations.ofCase (TestCase.ofSource directory name source) = .ok expectations) :
    (verify expectations execution).passed = true ↔
      execution.termination.isTimeout = false ∧
        (∀ code, execution.termination.effectiveCode? = some code →
          CodeAccepted (Text.lines source) code) ∧
        ∃ place, Placement (checkPatterns (Text.lines source)) execution.lines
          {index | index < (checkPatterns (Text.lines source)).length} place := by
  obtain ⟨checksEq, exitEq, abortIff⟩ := Expectations.ofCase_eq_ok stated
  change expectations.checks = Expectations.checksFrom 1 (Text.lines source) at checksEq
  change Expectations.lastExitCode? 0 (Text.lines source) = some expectations.exitCode at exitEq
  change expectations.abort = true ↔ Expectations.StatesAbort (Text.lines source) at abortIff
  have patternsEq :
      expectations.checks.map Check.pattern = checkPatterns (Text.lines source) := by
    rw [checksEq]
    exact Expectations.map_pattern_checksFrom 1 _
  have lengthEq : expectations.checks.length = (checkPatterns (Text.lines source)).length := by
    rw [← patternsEq, List.length_map]
  have acceptedIff (code : Int) :
      codeFailure? expectations code = none ↔ CodeAccepted (Text.lines source) code := by
    rw [codeFailure?_eq_none_iff, CodeAccepted, abortIff, exitEq, Option.some.injEq,
      eq_comm (a := code)]
  have placedIff : misses expectations.checks execution.lines = [] ↔
      Placeable (checkPatterns (Text.lines source)) execution.lines
        {index | index < (checkPatterns (Text.lines source)).length} := by
    rw [misses_eq_nil_iff, patternsEq, lengthEq]
  rw [passed_verify_iff, isTimeout_eq_false_iff]
  constructor
  · rintro ⟨code, effective, fine, noMiss⟩
    refine ⟨⟨code, effective⟩, ?_, placedIff.mp noMiss⟩
    intro other otherEffective
    have same : code = other := Option.some.inj (effective.symm.trans otherEffective)
    exact same ▸ (acceptedIff code).mp fine
  · rintro ⟨⟨code, effective⟩, accepted, placed⟩
    exact ⟨code, effective, (acceptedIff code).mpr (accepted code effective),
      placedIff.mpr placed⟩

/-- Two checks with one pattern, and an exit line that a later one replaces. -/
theorem passes_repeated_pattern :
    Expectations.ofCase (TestCase.ofSource "/work" "case.tcf"
        "# EXIT 1\n# CHECK: ab\r\n# CHECK: ab\n# EXIT  +3 ") =
      .ok ⟨[⟨2, "ab"⟩, ⟨3, "ab"⟩], 3, false⟩ ∧
    (verify ⟨[⟨2, "ab"⟩, ⟨3, "ab"⟩], 3, false⟩ ⟨"cab\nb\nabab\r\n", .exited 3, {}⟩).passed =
      true ∧
    (Termination.exited 3).isTimeout = false ∧
    (∀ code, (Termination.exited 3).effectiveCode? = some code →
      CodeAccepted (Text.lines "# EXIT 1\n# CHECK: ab\r\n# CHECK: ab\n# EXIT  +3 ") code) ∧
    ∃ place, Placement
      (checkPatterns (Text.lines "# EXIT 1\n# CHECK: ab\r\n# CHECK: ab\n# EXIT  +3 "))
      (Text.lines "cab\nb\nabab\r\n")
      {index | index <
        (checkPatterns (Text.lines "# EXIT 1\n# CHECK: ab\r\n# CHECK: ab\n# EXIT  +3 ")).length}
      place := by
  have stated : Expectations.ofCase (TestCase.ofSource "/work" "case.tcf"
      "# EXIT 1\n# CHECK: ab\r\n# CHECK: ab\n# EXIT  +3 ") =
      .ok ⟨[⟨2, "ab"⟩, ⟨3, "ab"⟩], 3, false⟩ := by
    decide
  have passed : (verify ⟨[⟨2, "ab"⟩, ⟨3, "ab"⟩], 3, false⟩
      ⟨"cab\nb\nabab\r\n", .exited 3, {}⟩).passed = true := by
    decide
  exact ⟨stated, passed, (verify_passed_iff _ _ _ _ _ stated).mp passed⟩

end CaseHarness.Verification
