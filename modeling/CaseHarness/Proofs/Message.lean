import CaseHarness.Console
import CaseHarness.Proofs.Text.Numeral
import Mathlib.Data.List.Basic

/-!
# What the message of a failure tells

In each language the messages of one kind of failure have one frame: an opening, what stands
between the values, and a closing.  The openings of two kinds are apart, so the kind is seen
from the message.  A number ends where its frame goes on, so its value is seen as well; and a
pattern stands at the end, whatever it looks like.
-/

namespace CaseHarness

namespace Text

/-- Neither of two texts begins with the other. -/
def Apart (first second : String) : Prop :=
  ¬ first.toList <+: second.toList ∧ ¬ second.toList <+: first.toList

theorem apart_ofList {first second : List Char}
    (apart : ¬ first <+: second ∧ ¬ second <+: first) :
    Apart (String.ofList first) (String.ofList second) := by
  rwa [Apart, String.toList_ofList, String.toList_ofList]

theorem Apart.append_ne {first second : String} (apart : Apart first second)
    (rest other : String) : first ++ rest ≠ second ++ other := by
  intro same
  have sameList := congrArg String.toList same
  rw [String.toList_append, String.toList_append] at sameList
  have firstStarts : first.toList <+: first.toList ++ rest.toList := List.prefix_append _ _
  have secondStarts : second.toList <+: first.toList ++ rest.toList :=
    sameList ▸ List.prefix_append _ _
  rcases List.prefix_or_prefix_of_prefix firstStarts secondStarts with before | before
  · exact apart.1 before
  · exact apart.2 before

/-- A text that ends before a mark which it does not hold is known from what it is part of. -/
theorem append_stop_inj {front other stop back rest : String} {mark : Char}
    (stops : stop.toList.head? = some mark) (clean : mark ∉ front.toList)
    (otherClean : mark ∉ other.toList) (same : front ++ (stop ++ back) = other ++ (stop ++ rest)) :
    front = other ∧ back = rest := by
  obtain ⟨tail, stopEq⟩ := List.head?_eq_some_iff.mp stops
  have untilMark : ∀ {text : String} (following : String), mark ∉ text.toList →
      (text ++ (stop ++ following)).toList.takeWhile (fun other => other ≠ mark) =
        text.toList := by
    intro text following textClean
    have unmarked : ∀ other ∈ text.toList, decide (other ≠ mark) = true := by
      intro other mem
      exact decide_eq_true fun isMark => textClean (isMark ▸ mem)
    rw [String.toList_append, String.toList_append, stopEq, List.takeWhile_append_of_pos unmarked]
    simp
  have frontEq : front = other := by
    rw [← String.toList_inj, ← untilMark back clean, same, untilMark rest otherClean]
  subst frontEq
  have behind : stop ++ back = stop ++ rest := (String.append_right_inj front).mp same
  exact ⟨rfl, (String.append_right_inj stop).mp behind⟩

namespace Numeral

theorem decimal_injective : Function.Injective decimal := by
  intro first second same
  have read := digits?_decimal first
  rw [same, digits?_decimal] at read
  exact (Option.some.inj read).symm

theorem signedDecimal_injective : Function.Injective signedDecimal := by
  intro first second same
  have read := signed?_eq_some_iff.mpr (literal_signedDecimal first)
  rw [same, signed?_eq_some_iff.mpr (literal_signedDecimal second)] at read
  exact (Option.some.inj read).symm

/-- A mark that is no part of a number. -/
def Separates (mark : Char) : Prop :=
  mark.isDigit = false ∧ mark ≠ '-'

instance (mark : Char) : Decidable (Separates mark) :=
  inferInstanceAs (Decidable (_ ∧ _))

variable {mark : Char}

theorem Separates.notMem_decimal (separates : Separates mark) (number : Nat) :
    mark ∉ (decimal number).toList := by
  intro mem
  have digit := isDigit_of_mem_decimal mem
  rw [separates.1] at digit
  cases digit

theorem Separates.notMem_signedDecimal (separates : Separates mark) (number : Int) :
    mark ∉ (signedDecimal number).toList := by
  cases number with
  | ofNat value => exact separates.notMem_decimal value
  | negSucc value =>
      rw [signedDecimal, String.toList_append]
      exact List.not_mem_append (by simpa using separates.2) (separates.notMem_decimal _)

end Numeral

end Text

open Text (Apart append_stop_inj)
open Text.Numeral (decimal signedDecimal Separates)

/-- The kinds of failures. -/
inductive Failure.Kind where
  | checkNotFound
  | nonZeroExit
  | exitCodeMismatch
  | unexpectedSuccess
  | timedOut
  deriving DecidableEq

def Failure.kind : Failure → Kind
  | checkNotFound .. => .checkNotFound
  | nonZeroExit _ => .nonZeroExit
  | exitCodeMismatch .. => .exitCodeMismatch
  | unexpectedSuccess => .unexpectedSuccess
  | timedOut _ => .timedOut

/-- What the messages of one kind have in common. -/
structure Frame where
  opening : String
  middle : String := ""
  closing : String := ""

/-- The frames of a language. -/
def Language.frame : Language → Failure.Kind → Frame
  | english, .checkNotFound => ⟨"CHECK on line ", " not found: ", ""⟩
  | english, .nonZeroExit =>
      ⟨"Test returned non-zero exit code (", "), full output below.", ""⟩
  | english, .exitCodeMismatch => ⟨"Exit code ", " does not match expected value of ", ""⟩
  | english, .unexpectedSuccess => ⟨"Test was expected to abort but exited with code 0", "", ""⟩
  | english, .timedOut => ⟨"Test timed out after ", "s", ""⟩
  | chinese, .checkNotFound => ⟨"第 ", " 行的 CHECK 未找到: ", ""⟩
  | chinese, .nonZeroExit => ⟨"测试返回了非零退出码 (", ")，完整输出如下。", ""⟩
  | chinese, .exitCodeMismatch => ⟨"退出码 ", " 与预期值 ", " 不符"⟩
  | chinese, .unexpectedSuccess => ⟨"测试预期会异常终止，但以退出码 0 正常退出", "", ""⟩
  | chinese, .timedOut => ⟨"测试在 ", " 秒后超时", ""⟩

/-- The message of a failure behind its opening. -/
def Frame.body (frame : Frame) : Failure → String
  | .checkNotFound line pattern => decimal line ++ (frame.middle ++ pattern)
  | .nonZeroExit actual => signedDecimal actual ++ frame.middle
  | .exitCodeMismatch actual expected =>
      signedDecimal actual ++ (frame.middle ++ (signedDecimal expected ++ frame.closing))
  | .unexpectedSuccess => ""
  | .timedOut milliseconds => Text.Decimal.secondsOfMilliseconds milliseconds ++ frame.middle

variable {first second : Failure} {tag : String}

theorem Failure.text_eq (failure : Failure) (tag : String) :
    failure.text tag = ((Language.lookup tag).frame failure.kind).opening ++
      ((Language.lookup tag).frame failure.kind).body failure := by
  unfold Failure.text Message.text
  cases Language.lookup tag <;> cases failure <;>
    dsimp only [toMessage, Language.render, Message.english, Message.chinese, kind,
      Language.frame, Frame.body] <;>
    simp only [String.append_assoc, String.append_empty]

theorem Language.apart_opening (language : Language) {kind other : Failure.Kind}
    (different : kind ≠ other) :
    Apart (language.frame kind).opening (language.frame other).opening := by
  cases language <;> cases kind <;> cases other <;>
    first
      | exact absurd rfl different
      | exact Text.apart_ofList (by decide)

/-- Behind a number the frame goes on with a mark that is no part of it. -/
theorem Language.middle_separates (language : Language) (kind : Failure.Kind)
    (holdsNumber : kind ≠ .unexpectedSuccess ∧ kind ≠ .timedOut) :
    ∃ mark, (language.frame kind).middle.toList.head? = some mark ∧ Separates mark := by
  cases kind with
  | checkNotFound | exitCodeMismatch => exact ⟨' ', by cases language <;> rfl, by decide⟩
  | nonZeroExit => exact ⟨')', by cases language <;> rfl, by decide⟩
  | unexpectedSuccess => exact absurd rfl holdsNumber.1
  | timedOut => exact absurd rfl holdsNumber.2

/-- Failures with one message are of one kind. -/
theorem Failure.kind_eq_of_text_eq (same : first.text tag = second.text tag) :
    first.kind = second.kind := by
  by_contra different
  rw [text_eq, text_eq] at same
  exact ((Language.lookup tag).apart_opening different).append_ne _ _ same

/-- A frame shows its values: what stands in it can be told from how it is filled. -/
theorem Language.body_inj (language : Language) (sameKind : first.kind = second.kind)
    (inTime : first.kind ≠ .timedOut)
    (same : (language.frame first.kind).body first = (language.frame first.kind).body second) :
    first = second := by
  cases first with
  | checkNotFound line pattern =>
      cases second <;> cases sameKind
      next otherLine otherPattern =>
        obtain ⟨mark, stops, separates⟩ := language.middle_separates .checkNotFound ⟨nofun, inTime⟩
        obtain ⟨lineEq, rfl⟩ := append_stop_inj stops (separates.notMem_decimal line)
          (separates.notMem_decimal otherLine) same
        rw [Text.Numeral.decimal_injective lineEq]
  | nonZeroExit actual =>
      cases second <;> cases sameKind
      next other =>
        have codeEq := (String.append_left_inj _).mp same
        rw [Text.Numeral.signedDecimal_injective codeEq]
  | exitCodeMismatch actual expected =>
      cases second <;> cases sameKind
      next otherActual otherExpected =>
        obtain ⟨mark, stops, separates⟩ :=
          language.middle_separates .exitCodeMismatch ⟨nofun, inTime⟩
        obtain ⟨actualEq, behind⟩ := append_stop_inj stops (separates.notMem_signedDecimal actual)
          (separates.notMem_signedDecimal otherActual) same
        have expectedEq := (String.append_left_inj _).mp behind
        rw [Text.Numeral.signedDecimal_injective actualEq,
          Text.Numeral.signedDecimal_injective expectedEq]
  | unexpectedSuccess =>
      cases second <;> cases sameKind
      rfl
  | timedOut => exact absurd rfl inTime

theorem Failure.eq_of_text_eq (inTime : first.kind ≠ .timedOut)
    (same : first.text tag = second.text tag) : first = second := by
  have sameKind := kind_eq_of_text_eq same
  rw [text_eq, text_eq, ← sameKind] at same
  exact (Language.lookup tag).body_inj sameKind inTime ((String.append_right_inj _).mp same)

/-- In every language a message tells its failure, and it is never the message of a run whose
time was over.  The pattern of a missed check stands unchanged at the end of its message. -/
theorem Failure.text_tells_failure (tag : String) :
    (∀ first second : Failure, first.kind ≠ .timedOut → second.kind ≠ .timedOut →
        first.text tag = second.text tag → first = second) ∧
      (∀ failure : Failure, failure.kind ≠ .timedOut →
        ∀ milliseconds, failure.text tag ≠ (Failure.timedOut milliseconds).text tag) ∧
      ∀ line, ∃ front, ∀ pattern,
        (Failure.checkNotFound line pattern).text tag = front ++ pattern := by
  refine ⟨fun first second inTime _ => eq_of_text_eq inTime, ?_, ?_⟩
  · rintro failure inTime milliseconds same
    exact inTime (kind_eq_of_text_eq same)
  · intro line
    let frame := (Language.lookup tag).frame .checkNotFound
    refine ⟨frame.opening ++ (decimal line ++ frame.middle), fun pattern => ?_⟩
    rw [text_eq, String.append_assoc, String.append_assoc]
    rfl

end CaseHarness
