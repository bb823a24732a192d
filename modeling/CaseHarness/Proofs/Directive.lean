import CaseHarness.Directive
import CaseHarness.Proofs.Text.Numeral
import CaseHarness.Proofs.Text.Trimming

/-!
# What a single line states

A line begins with exactly one of the three openings or with none of them.  Behind the exit
opening it states a code exactly if the text there, without its outer white space, is a number
of 32 bits; otherwise the reader returns that text.
-/

namespace CaseHarness.Directive

open Text (Blank TrimsTo)
open Text.Numeral (Int32Literal signedDecimal)

/-- The ways in which a line can begin: with exactly one of the openings, or with none. -/
inductive Beginning (characters : List Char) : Prop where
  | check {rest : List Char} (opened : Text.after? checkOpening characters = some rest)
      (noExit : Text.after? exitOpening characters = none)
      (noAbort : Text.after? abortOpening characters = none)
  | exit {value : List Char} (noCheck : Text.after? checkOpening characters = none)
      (opened : Text.after? exitOpening characters = some value)
      (noAbort : Text.after? abortOpening characters = none)
  | abort {rest : List Char} (noCheck : Text.after? checkOpening characters = none)
      (noExit : Text.after? exitOpening characters = none)
      (opened : Text.after? abortOpening characters = some rest)
  | plain (noCheck : Text.after? checkOpening characters = none)
      (noExit : Text.after? exitOpening characters = none)
      (noAbort : Text.after? abortOpening characters = none)

theorem beginning (characters : List Char) : Beginning characters := by
  cases checkEq : Text.after? checkOpening characters with
  | some rest =>
      exact .check checkEq (Text.after?_eq_none_of_apart (by decide) checkEq)
        (Text.after?_eq_none_of_apart (by decide) checkEq)
  | none =>
      cases exitEq : Text.after? exitOpening characters with
      | some value =>
          exact .exit checkEq exitEq (Text.after?_eq_none_of_apart (by decide) exitEq)
      | none =>
          cases abortEq : Text.after? abortOpening characters with
          | some rest => exact .abort checkEq exitEq abortEq
          | none => exact .plain checkEq exitEq abortEq

theorem after?_toList_eq_some_iff {opening line : String} {rest : List Char} :
    Text.after? opening.toList line.toList = some rest ↔ line = opening ++ String.ofList rest := by
  rw [Text.after?_eq_some_iff, ← String.toList_inj, String.toList_append, String.toList_ofList]

theorem after?_toList_append (opening rest : String) :
    Text.after? opening.toList (opening ++ rest).toList = some rest.toList :=
  after?_toList_eq_some_iff.mpr (by rw [String.ofList_toList])

/-- The exit code that the text behind an exit opening stands for. -/
def exitValue? (value : List Char) : Option Int :=
  Text.Numeral.int32? (Text.trim value)

theorem ofExitValue_eq_ok_iff {value : List Char} {directive : Directive} :
    ofExitValue value = .ok directive ↔
      ∃ code, exitValue? value = some code ∧ directive = .exitCode code := by
  cases valueEq : Text.Numeral.int32? (Text.trim value) with
  | none => simp [ofExitValue, exitValue?, valueEq]
  | some code => simp [ofExitValue, exitValue?, valueEq, eq_comm]

/-- A text that stands for an exit code is the whole text between the white space. -/
theorem exitValue?_eq_some_iff {value : List Char} {code : Int} :
    exitValue? value = some code ↔ ∃ text, TrimsTo value text ∧ Int32Literal text code := by
  rw [exitValue?, Text.Numeral.int32?_eq_some_iff]
  constructor
  · exact fun literal => ⟨_, Text.trimsTo_trim value, literal⟩
  · rintro ⟨text, trims, literal⟩
    rwa [Text.trim_eq_iff.mpr trims]

theorem ofExitValue_eq_error_iff {value : List Char} {fault : InvalidExitCode} :
    ofExitValue value = .error fault ↔
      TrimsTo value fault.value.toList ∧ ¬ ∃ code, Int32Literal fault.value.toList code := by
  rw [← Text.trim_eq_iff]
  cases valueEq : Text.Numeral.int32? (Text.trim value) with
  | none =>
      have refused : ¬ ∃ code, Int32Literal (Text.trim value) code := by
        rintro ⟨code, literal⟩
        rw [Text.Numeral.int32?_eq_some_iff.mpr literal] at valueEq
        cases valueEq
      have faultEq : ofExitValue value = .error fault ↔
          Text.trim value = fault.value.toList := by
        cases fault
        simp [ofExitValue, valueEq, ← String.toList_inj]
      rw [faultEq]
      exact ⟨fun same => ⟨same, same ▸ refused⟩, And.left⟩
  | some code =>
      have literal := Text.Numeral.int32?_eq_some_iff.mp valueEq
      simp only [ofExitValue, valueEq, reduceCtorEq, false_iff, not_and, not_not]
      exact fun same => ⟨code, same ▸ literal⟩

theorem ofLine_exit (rest : String) :
    ofLine ("# EXIT " ++ rest) = (ofExitValue rest.toList).map some := by
  have opened : Text.after? exitOpening ("# EXIT " ++ rest).toList = some rest.toList :=
    after?_toList_append "# EXIT " rest
  have noCheck := Text.after?_eq_none_of_apart
    (show ¬ checkOpening <+: exitOpening ∧ ¬ exitOpening <+: checkOpening by decide) opened
  simp only [ofLine, noCheck, opened]

theorem ofLine_exit_eq_ok_iff {rest : String} {code : Int} :
    ofLine ("# EXIT " ++ rest) = .ok (some (.exitCode code)) ↔
      exitValue? rest.toList = some code := by
  rw [ofLine_exit, exitValue?]
  cases valueEq : Text.Numeral.int32? (Text.trim rest.toList) with
  | none => simp [ofExitValue, valueEq, Except.map]
  | some value => simp [ofExitValue, valueEq, Except.map]

theorem ofLine_exit_eq_error_iff {rest : String} {fault : InvalidExitCode} :
    ofLine ("# EXIT " ++ rest) = .error fault ↔
      TrimsTo rest.toList fault.value.toList ∧
        ¬ ∃ code, Int32Literal fault.value.toList code := by
  rw [← ofExitValue_eq_error_iff, ofLine_exit]
  cases ofExitValue rest.toList with
  | error other => simp [Except.map]
  | ok directive => simp [Except.map]

/-- An exit line whose text between the white space is no number of 32 bits. -/
def InvalidExit (line value : String) : Prop :=
  ∃ rest, line = "# EXIT " ++ rest ∧ TrimsTo rest.toList value.toList ∧
    ¬ ∃ code, Int32Literal value.toList code

/-- A line that begins with none of the openings. -/
structure Inert (line : String) : Prop where
  noCheck : ∀ rest, line ≠ "# CHECK: " ++ rest
  noExit : ∀ rest, line ≠ "# EXIT " ++ rest
  noAbort : ∀ rest, line ≠ "# ABORT" ++ rest

theorem toList_prefix_iff {opening line : String} :
    opening.toList <+: line.toList ↔ ∃ rest, line = opening ++ rest := by
  constructor
  · rintro ⟨rest, split⟩
    exact ⟨String.ofList rest, after?_toList_eq_some_iff.mp
      (Text.after?_eq_some_iff.mpr split.symm)⟩
  · rintro ⟨rest, rfl⟩
    exact ⟨rest.toList, String.toList_append.symm⟩

theorem after?_toList_eq_none {opening line : String} (differs : ∀ rest, line ≠ opening ++ rest) :
    Text.after? opening.toList line.toList = none :=
  Option.eq_none_iff_forall_ne_some.mpr fun _ found =>
    differs _ (after?_toList_eq_some_iff.mp found)

theorem ofLine_inert {line : String} (inert : Inert line) : ofLine line = .ok none := by
  have noCheck : Text.after? checkOpening line.toList = none :=
    after?_toList_eq_none inert.noCheck
  have noExit : Text.after? exitOpening line.toList = none := after?_toList_eq_none inert.noExit
  have noAbort : Text.after? abortOpening line.toList = none :=
    after?_toList_eq_none inert.noAbort
  simp [ofLine, noCheck, noExit, noAbort]

/-- Only exit lines are refused, and what is returned is their trimmed text. -/
theorem ofLine_eq_error_iff {line : String} {fault : InvalidExitCode} :
    ofLine line = .error fault ↔ InvalidExit line fault.value := by
  constructor
  · intro refused
    obtain ⟨rest, rfl⟩ : ∃ rest, line = "# EXIT " ++ rest := by
      unfold ofLine at refused
      split at refused
      · cases refused
      · split at refused
        · next opened => exact ⟨_, after?_toList_eq_some_iff.mp opened⟩
        · split at refused <;> cases refused
    exact ⟨rest, rfl, ofLine_exit_eq_error_iff.mp refused⟩
  · rintro ⟨rest, rfl, invalid⟩
    exact ofLine_exit_eq_error_iff.mpr invalid

theorem exists_ofLine_eq_ok_iff {line : String} :
    (∃ directive, ofLine line = .ok directive) ↔ ∀ value, ¬ InvalidExit line value := by
  cases read : ofLine line with
  | ok directive =>
      refine iff_of_true ⟨directive, rfl⟩ ?_
      intro value invalid
      have refused : ofLine line = .error ⟨value⟩ := ofLine_eq_error_iff.mpr invalid
      rw [refused] at read
      cases read
  | error fault =>
      refine iff_of_false ?_ fun valid => valid fault.value (ofLine_eq_error_iff.mp read)
      rintro ⟨directive, same⟩
      cases same

/-- A line is refused exactly if it is an exit line and states no code. -/
theorem exists_ofLine_eq_ok_iff_isSome {line : String} :
    (∃ directive, ofLine line = .ok directive) ↔
      ∀ value, Text.after? exitOpening line.toList = some value →
        (exitValue? value).isSome = true := by
  cases beginning line.toList with
  | check opened noExit => simp [ofLine, opened, noExit]
  | @exit value noCheck opened =>
      cases valueEq : Text.Numeral.int32? (Text.trim value) <;>
        simp [ofLine, noCheck, opened, ofExitValue, exitValue?, valueEq, Except.map]
  | abort noCheck noExit opened => simp [ofLine, noCheck, noExit, opened]
  | plain noCheck noExit noAbort => simp [ofLine, noCheck, noExit, noAbort]

/-- An exit line states exactly the numbers of 32 bits that its text writes between white
space, and of any other text it returns what stands between the white space.  In particular
every such number is read back from its decimal text. -/
theorem exit_line_states_int32 :
    (∀ value : String, ∃ text : String, TrimsTo value.toList text.toList ∧
      (∀ code, ofLine ("# EXIT " ++ value) = .ok (some (.exitCode code)) ↔
        Int32Literal text.toList code) ∧
      (ofLine ("# EXIT " ++ value) = .error ⟨text⟩ ↔
        ¬ ∃ code, Int32Literal text.toList code)) ∧
    ∀ (code : Int) (before behind : String), -2147483648 ≤ code → code ≤ 2147483647 →
      Blank before.toList → Blank behind.toList →
        ofLine ("# EXIT " ++ (before ++ signedDecimal code ++ behind)) =
          .ok (some (.exitCode code)) := by
  constructor
  · intro value
    have trims : TrimsTo value.toList (String.ofList (Text.trim value.toList)).toList := by
      rw [String.toList_ofList]
      exact Text.trimsTo_trim value.toList
    refine ⟨_, trims, ?_, ofLine_exit_eq_error_iff.trans (and_iff_right trims)⟩
    intro code
    rw [ofLine_exit_eq_ok_iff, exitValue?, Text.Numeral.int32?_eq_some_iff, String.toList_ofList]
  · intro code before behind lower upper blankBefore blankBehind
    have literal := Text.Numeral.literal_signedDecimal code
    have trims : TrimsTo (before ++ signedDecimal code ++ behind).toList
        (signedDecimal code).toList := by
      refine ⟨⟨before.toList, behind.toList, by simp, blankBefore, blankBehind⟩, ?_, ?_⟩
      · exact fun first head => literal.solid first (List.mem_of_mem_head? head)
      · exact fun last isLast => literal.solid last (List.mem_of_mem_getLast? isLast)
    exact ofLine_exit_eq_ok_iff.mpr
      (exitValue?_eq_some_iff.mpr ⟨_, trims, literal, lower, upper⟩)

/-- The range of exit codes has one more negative than positive number. -/
example : ofLine "# EXIT \u3000-0002147483648 " = .ok (some (.exitCode (-2147483648))) ∧
    ofLine "# EXIT +2147483648" = .error ⟨"+2147483648"⟩ := by
  decide

end CaseHarness.Directive
