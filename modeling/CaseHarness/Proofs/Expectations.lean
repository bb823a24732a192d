import CaseHarness.Expectations
import CaseHarness.Proofs.Directive
import Mathlib.Data.List.Sort

/-!
# What the lines of a test case state

The reader of a test case goes through the lines once and keeps what it has seen so
far.  Here its result is described without that order of work, by three questions to
the list of lines: what follows the check openings, what follows the last exit
opening, and whether any line begins with the abort opening.  A test case is refused
exactly if an exit line is invalid, the first such line is the one that is named, and
lines without an opening have no part in any of this but that they are counted.
-/

namespace CaseHarness

namespace Expectations

open Directive (checkOpening exitOpening abortOpening exitValue? Inert InvalidExit)
open Text (TrimsTo)
open Text.Numeral (Int32Literal)

/-- What follows an opening, for every line that begins with it. -/
def restsAfter (opening : List Char) (lines : List String) : List (List Char) :=
  lines.filterMap fun line => Text.after? opening line.toList

/-- The checks of lines, the first of which has the given number. -/
def checksFrom (number : Nat) (lines : List String) : List Check :=
  (lines.zipIdx number).filterMap fun entry =>
    (Text.after? checkOpening entry.1.toList).map fun rest => ⟨entry.2, String.ofList rest⟩

/-- The value of the last exit line, or the given code if there is no such line. -/
def lastExitCode? (code : Int) (lines : List String) : Option Int :=
  match (restsAfter exitOpening lines).getLast? with
  | none => some code
  | some value => exitValue? value

/-- Whether some line begins with the abort opening. -/
def StatesAbort (lines : List String) : Prop :=
  ∃ line ∈ lines, abortOpening <+: line.toList

variable {line : String} {lines : List String} {number : Nat}

theorem statesAbort_cons :
    StatesAbort (line :: lines) ↔
      (Text.after? abortOpening line.toList).isSome = true ∨ StatesAbort lines := by
  simp [StatesAbort, Text.isSome_after?_iff]

theorem map_pattern_checksFrom (number : Nat) (lines : List String) :
    (checksFrom number lines).map Check.pattern =
      (restsAfter checkOpening lines).map String.ofList := by
  induction lines generalizing number with
  | nil => rfl
  | cons line lines ih =>
      have tail := ih (number + 1)
      simp only [checksFrom, restsAfter] at tail
      cases found : Text.after? checkOpening line.toList with
      | none => simp [checksFrom, restsAfter, found, tail]
      | some rest => simp [checksFrom, restsAfter, found, tail]

theorem lastExitCode?_cons_of_exit {value : List Char} {code first : Int}
    (opened : Text.after? exitOpening line.toList = some value)
    (valueEq : exitValue? value = some code) :
    lastExitCode? first (line :: lines) = lastExitCode? code lines := by
  have restsEq : restsAfter exitOpening (line :: lines) =
      value :: restsAfter exitOpening lines := by
    simp [restsAfter, opened]
  simp only [lastExitCode?, restsEq, List.getLast?_cons]
  cases (restsAfter exitOpening lines).getLast? with
  | none => exact valueEq
  | some last => rfl

theorem lastExitCode?_cons_of_none {first : Int}
    (opened : Text.after? exitOpening line.toList = none) :
    lastExitCode? first (line :: lines) = lastExitCode? first lines := by
  simp [lastExitCode?, restsAfter, opened]

/-- What the reader returns is what it began with together with what the lines state. -/
theorem addLines_eq_ok {expectations result : Expectations}
    (read : expectations.addLines number lines = .ok result) :
    result.checks = expectations.checks ++ checksFrom number lines ∧
      lastExitCode? expectations.exitCode lines = some result.exitCode ∧
      (result.abort = true ↔ expectations.abort = true ∨ StatesAbort lines) := by
  induction lines generalizing expectations number with
  | nil =>
      cases read
      simp [checksFrom, lastExitCode?, restsAfter, StatesAbort]
  | cons line lines ih =>
      rw [statesAbort_cons]
      cases Directive.beginning line.toList with
      | check opened noExit noAbort =>
          simp only [addLines, Directive.ofLine, opened] at read
          obtain ⟨checksEq, exitEq, abortIff⟩ := ih read
          refine ⟨?_, ?_, ?_⟩
          · simp [checksEq, add, checksFrom, opened]
          · rw [lastExitCode?_cons_of_none noExit]
            exact exitEq
          · simpa [add, noAbort] using abortIff
      | @exit value noCheck opened noAbort =>
          simp only [addLines, Directive.ofLine, noCheck, opened] at read
          cases valueEq : Directive.ofExitValue value with
          | error fault => simp [valueEq, Except.map] at read
          | ok directive =>
              obtain ⟨code, codeEq, rfl⟩ := Directive.ofExitValue_eq_ok_iff.mp valueEq
              simp only [valueEq, Except.map] at read
              obtain ⟨checksEq, exitEq, abortIff⟩ := ih read
              refine ⟨?_, ?_, ?_⟩
              · simp [checksEq, add, checksFrom, noCheck]
              · rw [lastExitCode?_cons_of_exit opened codeEq]
                exact exitEq
              · simpa [add, noAbort] using abortIff
      | abort noCheck noExit opened =>
          simp only [addLines, Directive.ofLine, noCheck, noExit, opened, Option.isSome_some,
            if_true] at read
          obtain ⟨checksEq, exitEq, abortIff⟩ := ih read
          refine ⟨?_, ?_, ?_⟩
          · simp [checksEq, add, checksFrom, noCheck]
          · rw [lastExitCode?_cons_of_none noExit]
            exact exitEq
          · simpa [add, opened] using abortIff
      | plain noCheck noExit noAbort =>
          simp only [addLines, Directive.ofLine, noCheck, noExit, noAbort,
            Option.isSome_none] at read
          obtain ⟨checksEq, exitEq, abortIff⟩ := ih read
          refine ⟨?_, ?_, ?_⟩
          · simp [checksEq, checksFrom, noCheck]
          · rw [lastExitCode?_cons_of_none noExit]
            exact exitEq
          · simpa [noAbort] using abortIff

/-- The expectations of a test case are what its lines state. -/
theorem ofCase_eq_ok {case : TestCase} {result : Expectations} (read : ofCase case = .ok result) :
    result.checks = checksFrom 1 case.lines ∧
      lastExitCode? 0 case.lines = some result.exitCode ∧
      (result.abort = true ↔ StatesAbort case.lines) := by
  obtain ⟨checksEq, exitEq, abortIff⟩ := addLines_eq_ok read
  exact ⟨checksEq, exitEq, by simpa using abortIff⟩

theorem addLines_cons_of_ok {expectations : Expectations} {directive : Option Directive}
    (stated : Directive.ofLine line = .ok directive) :
    expectations.addLines number (line :: lines) =
      (directive.elim expectations (expectations.add number)).addLines (number + 1) lines := by
  cases directive <;> simp [addLines, stated]

theorem addLines_cons_of_error {expectations : Expectations} {fault : InvalidExitCode}
    (refused : Directive.ofLine line = .error fault) :
    expectations.addLines number (line :: lines) = .error ⟨number, fault.value⟩ := by
  simp [addLines, refused]

/-- The reader comes to the end exactly if it refuses no line. -/
theorem exists_addLines_eq_ok_iff {expectations : Expectations} :
    (∃ result, expectations.addLines number lines = .ok result) ↔
      ∀ line ∈ lines, ∃ directive, Directive.ofLine line = .ok directive := by
  induction lines generalizing expectations number with
  | nil => simp
  | cons line lines ih =>
      rw [List.forall_mem_cons]
      cases read : Directive.ofLine line with
      | ok directive => simp [addLines_cons_of_ok read, ih]
      | error fault => simp [addLines_cons_of_error read]

/-- The reader stops at the first line that it refuses, whatever follows there. -/
theorem addLines_eq_error_iff {expectations : Expectations} {fault : MalformedExit} :
    expectations.addLines number lines = .error fault ↔
      ∃ before line after, lines = before ++ line :: after ∧
        (∀ earlier ∈ before, ∃ directive, Directive.ofLine earlier = .ok directive) ∧
        Directive.ofLine line = .error ⟨fault.value⟩ ∧ fault.line = number + before.length := by
  obtain ⟨faultLine, value⟩ := fault
  induction lines generalizing expectations number with
  | nil => simp
  | cons first lines ih =>
      cases read : Directive.ofLine first with
      | error refused =>
          rw [addLines_cons_of_error read]
          constructor
          · intro same
            cases same
            exact ⟨[], first, lines, rfl, by simp, read, rfl⟩
          · rintro ⟨before, line, after, split, stated, lineRefused, lineEq⟩
            cases before with
            | nil =>
                cases split
                rw [read] at lineRefused
                cases lineRefused
                cases lineEq
                rfl
            | cons earlier before =>
                cases split
                obtain ⟨directive, ok⟩ := stated first List.mem_cons_self
                rw [read] at ok
                cases ok
      | ok directive =>
          rw [addLines_cons_of_ok read, ih]
          constructor
          · rintro ⟨before, line, after, rfl, stated, lineRefused, lineEq⟩
            refine ⟨first :: before, line, after, rfl, ?_, lineRefused, ?_⟩
            · exact List.forall_mem_cons.mpr ⟨⟨directive, read⟩, stated⟩
            · rw [lineEq, List.length_cons]
              omega
          · rintro ⟨before, line, after, split, stated, lineRefused, lineEq⟩
            cases before with
            | nil =>
                cases split
                rw [read] at lineRefused
                cases lineRefused
            | cons earlier before =>
                cases split
                refine ⟨before, line, after, rfl, (List.forall_mem_cons.mp stated).2,
                  lineRefused, ?_⟩
                rw [lineEq, List.length_cons]
                omega

/-- A test case states expectations exactly if all its exit lines are well formed. -/
theorem exists_ofCase_eq_ok_iff {case : TestCase} :
    (∃ result, ofCase case = .ok result) ↔
      ∀ value ∈ restsAfter exitOpening case.lines, (exitValue? value).isSome = true := by
  rw [ofCase, exists_addLines_eq_ok_iff]
  simp only [Directive.exists_ofLine_eq_ok_iff_isSome, restsAfter, List.mem_filterMap]
  exact ⟨fun valid value ⟨line, mem, opened⟩ => valid line mem value opened,
    fun valid line mem value opened => valid value ⟨line, mem, opened⟩⟩

/-- A check that stands on the line with its number. -/
def StandsIn (lines : List String) (check : Check) : Prop :=
  ∃ index, check.line = index + 1 ∧ lines[index]? = some ("# CHECK: " ++ check.pattern)

/-- The exit code that lines state: the one on the last exit line, or zero without one. -/
inductive StatesExitCode : List String → Int → Prop
  | never {lines : List String} (unstated : ∀ line ∈ lines, ∀ value, line ≠ "# EXIT " ++ value) :
      StatesExitCode lines 0
  | last {before after : List String} {value : String} {text : List Char} {code : Int}
      (trims : TrimsTo value.toList text) (literal : Int32Literal text code)
      (unstated : ∀ line ∈ after, ∀ other, line ≠ "# EXIT " ++ other) :
      StatesExitCode (before ++ ("# EXIT " ++ value) :: after) code

/-- The expectations that lines state, whatever the order in which they are read. -/
structure StatedBy (lines : List String) (expectations : Expectations) : Prop where
  increasing : expectations.checks.Pairwise fun first second => first.line < second.line
  mem_checks_iff : ∀ check, check ∈ expectations.checks ↔ StandsIn lines check
  exitCode : StatesExitCode lines expectations.exitCode
  abort_iff : expectations.abort = true ↔ ∃ line ∈ lines, ∃ rest, line = "# ABORT" ++ rest

theorem pairwise_line_checksFrom (number : Nat) (lines : List String) :
    (checksFrom number lines).Pairwise fun first second => first.line < second.line := by
  have increasing : (lines.zipIdx number).Pairwise fun first second => first.2 < second.2 := by
    rw [← List.pairwise_map (R := (· < ·)), List.zipIdx_map_snd]
    exact List.pairwise_lt_range'
  apply increasing.filterMap
  intro first second less check checkEq other otherEq
  obtain ⟨rest, -, rfl⟩ := Option.map_eq_some_iff.mp checkEq
  obtain ⟨otherRest, -, rfl⟩ := Option.map_eq_some_iff.mp otherEq
  exact less

theorem mem_checksFrom_one_iff {check : Check} :
    check ∈ checksFrom 1 lines ↔ StandsIn lines check := by
  simp only [checksFrom, List.mem_filterMap, Option.map_eq_some_iff]
  constructor
  · rintro ⟨⟨line, lineNumber⟩, mem, rest, opened, rfl⟩
    obtain ⟨positive, lineAt⟩ := List.mem_zipIdx_iff_le_and_getElem?_sub.mp mem
    refine ⟨lineNumber - 1, by dsimp only at *; omega, ?_⟩
    rw [lineAt, Directive.after?_toList_eq_some_iff.mp opened]
  · rintro ⟨index, lineEq, lineAt⟩
    refine ⟨("# CHECK: " ++ check.pattern, index + 1), ?_, check.pattern.toList, ?_, ?_⟩
    · exact List.mem_zipIdx_iff_le_and_getElem?_sub.mpr ⟨by simp, by simpa using lineAt⟩
    · exact Directive.after?_toList_append "# CHECK: " check.pattern
    · rw [String.ofList_toList, ← lineEq]

theorem eq_checksFrom_iff {checks : List Check} :
    checks = checksFrom 1 lines ↔
      (checks.Pairwise fun first second => first.line < second.line) ∧
        ∀ check, check ∈ checks ↔ StandsIn lines check := by
  constructor
  · rintro rfl
    exact ⟨pairwise_line_checksFrom 1 lines, fun _ => mem_checksFrom_one_iff⟩
  · rintro ⟨increasing, members⟩
    have : Std.Asymm fun first second : Check => first.line < second.line :=
      ⟨fun _ _ less => Nat.lt_asymm less⟩
    apply increasing.eq_of_mem_iff (pairwise_line_checksFrom 1 lines)
    intro check
    rw [members, mem_checksFrom_one_iff]

theorem restsAfter_exit_eq_nil_iff :
    restsAfter exitOpening lines = [] ↔ ∀ line ∈ lines, ∀ value, line ≠ "# EXIT " ++ value := by
  rw [restsAfter, List.filterMap_eq_nil_iff]
  refine forall₂_congr fun line _ => ⟨?_, Directive.after?_toList_eq_none⟩
  rintro unopened value rfl
  have opened : Text.after? exitOpening ("# EXIT " ++ value).toList = some value.toList :=
    Directive.after?_toList_append "# EXIT " value
  rw [unopened] at opened
  cases opened

/-- What follows the last exit opening follows it on a line behind which there is no other. -/
theorem getLast?_restsAfter_exit_eq_some_iff {rest : List Char} :
    (restsAfter exitOpening lines).getLast? = some rest ↔
      ∃ before after, lines = before ++ ("# EXIT " ++ String.ofList rest) :: after ∧
        ∀ line ∈ after, ∀ other, line ≠ "# EXIT " ++ other := by
  constructor
  · intro isLast
    obtain ⟨others, split⟩ := List.getLast?_eq_some_iff.mp isLast
    obtain ⟨front, back, linesEq, -, backEq⟩ := List.filterMap_eq_append_iff.mp split
    obtain ⟨inert, line, after, rfl, -, opened, noneAfter⟩ := List.filterMap_eq_cons_iff.mp backEq
    refine ⟨front ++ inert, after, ?_, restsAfter_exit_eq_nil_iff.mp noneAfter⟩
    rw [linesEq, Directive.after?_toList_eq_some_iff.mp opened, List.append_assoc]
  · rintro ⟨before, after, rfl, unstated⟩
    have opened : Text.after? exitOpening ("# EXIT " ++ String.ofList rest).toList = some rest :=
      Directive.after?_toList_eq_some_iff.mpr rfl
    have noneAfter := restsAfter_exit_eq_nil_iff.mpr unstated
    rw [restsAfter] at noneAfter ⊢
    rw [List.filterMap_append, List.filterMap_cons, opened, noneAfter]
    simp

/-- The value of the last exit line is the stated exit code. -/
theorem lastExitCode?_eq_some_iff {code : Int} :
    lastExitCode? 0 lines = some code ↔ StatesExitCode lines code := by
  constructor
  · intro valueEq
    cases last : (restsAfter exitOpening lines).getLast? with
    | none =>
        rw [lastExitCode?, last] at valueEq
        cases valueEq
        exact .never (restsAfter_exit_eq_nil_iff.mp (List.getLast?_eq_none_iff.mp last))
    | some rest =>
        rw [lastExitCode?, last] at valueEq
        obtain ⟨before, after, rfl, unstated⟩ := getLast?_restsAfter_exit_eq_some_iff.mp last
        obtain ⟨text, trims, literal⟩ := Directive.exitValue?_eq_some_iff.mp valueEq
        rw [← String.toList_ofList (l := rest)] at trims
        exact .last trims literal unstated
  · intro states
    cases states with
    | never unstated =>
        rw [lastExitCode?, restsAfter_exit_eq_nil_iff.mpr unstated]
        rfl
    | @last before after value text _ trims literal unstated =>
        have last : (restsAfter exitOpening (before ++ ("# EXIT " ++ value) :: after)).getLast? =
            some value.toList :=
          getLast?_restsAfter_exit_eq_some_iff.mpr
            ⟨before, after, by rw [String.ofList_toList], unstated⟩
        rw [lastExitCode?, last]
        exact Directive.exitValue?_eq_some_iff.mpr ⟨text, trims, literal⟩

/-- What the questions to the lines say is what the lines state. -/
theorem statedBy_iff {expectations : Expectations} :
    StatedBy lines expectations ↔
      expectations.checks = checksFrom 1 lines ∧
        lastExitCode? 0 lines = some expectations.exitCode ∧
        (expectations.abort = true ↔ StatesAbort lines) := by
  have abortIff : StatesAbort lines ↔ ∃ line ∈ lines, ∃ rest, line = "# ABORT" ++ rest :=
    exists_congr fun _ => and_congr_right fun _ => Directive.toList_prefix_iff
  rw [eq_checksFrom_iff, lastExitCode?_eq_some_iff, abortIff]
  constructor
  · rintro ⟨increasing, members, exitCode, abort⟩
    exact ⟨⟨increasing, members⟩, exitCode, abort⟩
  · rintro ⟨⟨increasing, members⟩, exitCode, abort⟩
    exact ⟨increasing, members, exitCode, abort⟩

/-- Lines state expectations in one way only. -/
theorem StatedBy.unique {first second : Expectations} (firstStated : StatedBy lines first)
    (secondStated : StatedBy lines second) : first = second := by
  obtain ⟨firstChecks, firstCode, firstAbort⟩ := statedBy_iff.mp firstStated
  obtain ⟨secondChecks, secondCode, secondAbort⟩ := statedBy_iff.mp secondStated
  have checksEq : first.checks = second.checks := firstChecks.trans secondChecks.symm
  have codeEq : first.exitCode = second.exitCode :=
    Option.some.inj (firstCode.symm.trans secondCode)
  have abortEq : first.abort = second.abort :=
    Bool.eq_iff_iff.mpr (firstAbort.trans secondAbort.symm)
  cases first
  cases second
  cases checksEq
  cases codeEq
  cases abortEq
  rfl

/-- The first exit line whose value is invalid, with its number counted from one. -/
def FirstInvalid (lines : List String) (fault : MalformedExit) : Prop :=
  ∃ before line after, lines = before ++ line :: after ∧
    (∀ earlier ∈ before, ∀ value, ¬ InvalidExit earlier value) ∧
    InvalidExit line fault.value ∧ fault.line = before.length + 1

theorem ofCase_eq_error_iff {case : TestCase} {fault : MalformedExit} :
    ofCase case = .error fault ↔ FirstInvalid case.lines fault := by
  simp only [ofCase, addLines_eq_error_iff, Directive.exists_ofLine_eq_ok_iff,
    Directive.ofLine_eq_error_iff, FirstInvalid, Nat.add_comm 1]

theorem ofCase_eq_ok_iff {case : TestCase} {expectations : Expectations} :
    ofCase case = .ok expectations ↔
      (∀ line ∈ case.lines, ∀ value, ¬ InvalidExit line value) ∧
        StatedBy case.lines expectations := by
  have comesToEnd : (∃ result, ofCase case = .ok result) ↔
      ∀ line ∈ case.lines, ∀ value, ¬ InvalidExit line value := by
    simp only [ofCase, exists_addLines_eq_ok_iff, Directive.exists_ofLine_eq_ok_iff]
  constructor
  · intro read
    exact ⟨comesToEnd.mp ⟨expectations, read⟩, statedBy_iff.mpr (ofCase_eq_ok read)⟩
  · rintro ⟨valid, stated⟩
    obtain ⟨result, read⟩ := comesToEnd.mpr valid
    have resultStated := statedBy_iff.mpr (ofCase_eq_ok read)
    rw [read, stated.unique resultStated]

/-- Inert lines may stand for each other. -/
def Reworded (line other : String) : Prop :=
  other = line ∨ Inert line ∧ Inert other

theorem addLines_eq_of_reworded {others : List String}
    (reworded : List.Forall₂ Reworded lines others) (expectations : Expectations) (number : Nat) :
    expectations.addLines number others = expectations.addLines number lines := by
  induction reworded generalizing expectations number with
  | nil => rfl
  | @cons line other lines others same rest ih =>
      have sameReading : Directive.ofLine other = Directive.ofLine line := by
        rcases same with rfl | ⟨inert, otherInert⟩
        · rfl
        · rw [Directive.ofLine_inert inert, Directive.ofLine_inert otherInert]
      cases read : Directive.ofLine line with
      | error fault =>
          rw [addLines_cons_of_error read, addLines_cons_of_error (sameReading.trans read)]
      | ok directive =>
          rw [addLines_cons_of_ok read, addLines_cons_of_ok (sameReading.trans read)]
          exact ih _ _

/-- A test case is refused exactly if some exit line is invalid, and then the first such line is
named; otherwise its expectations are what its lines state.  Inert lines have no part in this
except that they are counted. -/
theorem ofCase_refuses_or_states (case : TestCase) :
    ((∃ fault, ofCase case = .error fault) ↔
        ∃ line ∈ case.lines, ∃ value, InvalidExit line value) ∧
      (∀ fault, ofCase case = .error fault ↔ FirstInvalid case.lines fault) ∧
      (∀ expectations, ofCase case = .ok expectations ↔
        (∀ line ∈ case.lines, ∀ value, ¬ InvalidExit line value) ∧
          StatedBy case.lines expectations) ∧
      ∀ other : TestCase, List.Forall₂ Reworded case.lines other.lines →
        ofCase other = ofCase case := by
  refine ⟨?_, fun _ => ofCase_eq_error_iff, fun _ => ofCase_eq_ok_iff,
    fun other reworded => addLines_eq_of_reworded reworded {} 1⟩
  cases read : ofCase case with
  | error fault =>
      obtain ⟨before, line, after, linesEq, -, invalid, -⟩ := ofCase_eq_error_iff.mp read
      exact iff_of_true ⟨fault, rfl⟩ ⟨line, by simp [linesEq], fault.value, invalid⟩
  | ok expectations =>
      obtain ⟨valid, -⟩ := ofCase_eq_ok_iff.mp read
      refine iff_of_false ?_ ?_
      · rintro ⟨fault, same⟩
        cases same
      · rintro ⟨line, mem, value, invalid⟩
        exact valid line mem value invalid

/-- A line with another opening is inert but counted, and the first invalid line is named. -/
example : ofCase (TestCase.ofSource "/work" "case.tcf"
    " # EXIT 1\n# EXIT\t2\n# EXIT  a b \n# EXIT c") = .error ⟨3, "a b"⟩ := by
  decide

end Expectations

end CaseHarness
