import CaseHarness.Proofs.Expectations
import CaseHarness.Proofs.Message
import CaseHarness.Proofs.Run.Course
import CaseHarness.Proofs.Text.Pieces
import CaseHarness.Proofs.Verification.Failures

/-!
# The rows of the console

A pattern comes from one line of a test case, and every number in a message is made of digits,
so the message of a failure is one row.  Whatever is printed has its last row ended, the
captured output included, so nothing that a program writes can reach into the rows behind it:
the failures and the summary stand alone.
-/

namespace CaseHarness

open Text (OneRow Ended Apart rows)
open Text.Numeral (decimal signedDecimal)

namespace Text

theorem Numeral.oneRow_decimal (number : Nat) : OneRow (decimal number) :=
  Separates.notMem_decimal (by decide) number

theorem Numeral.oneRow_signedDecimal (number : Int) : OneRow (signedDecimal number) :=
  Separates.notMem_signedDecimal (by decide) number

namespace Decimal

theorem Scaled.oneRow_text (scaled : Scaled) : OneRow scaled.text := by
  unfold Scaled.text
  split
  · exact Numeral.oneRow_decimal _
  · let digits := Nat.toDigits 10 scaled.digits
    let zeros := List.replicate ((-scaled.power).toNat + 1 - digits.length) '0'
    have areDigits : ∀ character ∈ zeros ++ digits, character.isDigit = true := by
      intro character mem
      rcases List.mem_append.mp mem with zero | digit
      · rw [List.eq_of_mem_replicate zero]
        decide
      · exact Nat.isDigit_of_mem_toDigits (by decide) (by decide) digit
    have noDigit : ¬ '\n'.isDigit = true := by decide
    intro mem
    rw [String.toList_ofList] at mem
    rcases List.mem_append.mp mem with whole | behind
    · exact noDigit (areDigits _ (List.mem_of_mem_take whole))
    · rcases List.mem_cons.mp behind with point | fraction
      · cases point
      · exact noDigit (areDigits _ (List.mem_of_mem_drop fraction))

theorem oneRow_secondsOfMilliseconds (milliseconds : Nat) :
    OneRow (secondsOfMilliseconds milliseconds) := by
  unfold secondsOfMilliseconds BinaryFraction.text
  split
  · exact oneRow_ofList (by decide)
  · exact Scaled.oneRow_text _

end Decimal

end Text

/-- The parts of a frame are on one row. -/
structure Frame.OnOneRow (frame : Frame) : Prop where
  opening : OneRow frame.opening
  middle : OneRow frame.middle
  closing : OneRow frame.closing

theorem Language.frame_onOneRow (language : Language) (kind : Failure.Kind) :
    (language.frame kind).OnOneRow := by
  cases language <;> cases kind <;> constructor <;> exact Text.oneRow_ofList (by decide)

theorem Failure.oneRow_text {failure : Failure}
    (clean : ∀ check, failure.check? = some check → OneRow check.pattern) (tag : String) :
    OneRow (failure.text tag) := by
  rw [text_eq]
  obtain ⟨opening, middle, closing⟩ := (Language.lookup tag).frame_onOneRow failure.kind
  refine opening.append ?_
  cases failure with
  | checkNotFound line pattern =>
      exact (Text.Numeral.oneRow_decimal line).append (middle.append (clean ⟨line, pattern⟩ rfl))
  | nonZeroExit actual => exact (Text.Numeral.oneRow_signedDecimal actual).append middle
  | exitCodeMismatch actual expected =>
      exact (Text.Numeral.oneRow_signedDecimal actual).append
        (middle.append ((Text.Numeral.oneRow_signedDecimal expected).append closing))
  | unexpectedSuccess => exact nofun
  | timedOut milliseconds =>
      exact (Text.Decimal.oneRow_secondsOfMilliseconds milliseconds).append middle

/-- A pattern that was read from a test case is a part of one of its lines. -/
theorem Expectations.oneRow_pattern {directory name source : String} {expectations : Expectations}
    (stated : ofCase (.ofSource directory name source) = .ok expectations) :
    ∀ check ∈ expectations.checks, OneRow check.pattern := by
  intro check mem newlineMem
  rw [(ofCase_eq_ok stated).1, mem_checksFrom_one_iff] at mem
  obtain ⟨index, -, lineAt⟩ := mem
  obtain ⟨line, lineMem, lineEq⟩ := List.mem_map.mp (List.mem_of_getElem? lineAt)
  refine Text.newline_notMem_of_mem_cutLines lineMem ?_
  rw [← String.toList_ofList (l := line), lineEq, String.toList_append]
  exact List.mem_append_right _ newlineMem

theorem Verification.oneRow_text {directory name source : String} {expectations : Expectations}
    (stated : Expectations.ofCase (.ofSource directory name source) = .ok expectations)
    (execution : Execution) (tag : String) :
    ∀ failure ∈ (verify expectations execution).failures, OneRow (failure.text tag) := by
  intro failure mem
  refine failure.oneRow_text (fun check missed => ?_) tag
  have among := (judges_verify expectations execution).sublist_checks
  exact Expectations.oneRow_pattern stated check
    (among.mem (List.mem_filterMap.mpr ⟨failure, mem, missed⟩))

namespace Console

variable {tag name output : String} {piece : Piece} {pieces : List Piece}

/-- The rows that a piece adds. -/
def Piece.rows : Piece → List String
  | message _ tag content => [content.text tag]
  | .output text => Text.rows text
  | emptyLine => [""]

/-- A line of the harness has no newline inside. -/
def Piece.Whole : Piece → Prop
  | message _ tag content => OneRow (content.text tag)
  | .output _ | emptyLine => True

end Console

namespace Plan

variable {plan : Plan} {case : TestCase} {expectations : Expectations} {execution : Execution}

/-- What a quiet run prints. -/
def prints (plan : Plan) (name : String) (expectations : Expectations) (execution : Execution) :
    String :=
  Console.text false (.output execution.output ::
    Console.outcome plan.tag name execution.output (Verification.verify expectations execution))

end Plan

end CaseHarness
