import CaseHarness.Expectations
import CaseHarness.Proofs.Text.DecodedLines
import CaseHarness.Verification

/-!
# Line ends make no difference

A file may come from a system that puts a carriage return in front of each newline, and its
last line may be ended or not.  Neither changes the lines of the file, and so neither the
expectations that a test case states nor what is found in the output of a run.
-/

namespace CaseHarness

namespace Text

section Cutting

variable {α : Type} [DecidableEq α] {newline carriage : α} {marks : List α}

/-- Put a carriage return in front of every newline. -/
def insertCarriages (newline carriage : α) (marks : List α) : List α :=
  marks.flatMap fun mark => if mark = newline then [carriage, newline] else [mark]

theorem insertCarriages_newline (rest : List α) :
    insertCarriages newline carriage (newline :: rest) =
      carriage :: newline :: insertCarriages newline carriage rest := by
  simp [insertCarriages]

theorem insertCarriages_cons_of_ne {mark : α} (notNewline : mark ≠ newline) (rest : List α) :
    insertCarriages newline carriage (mark :: rest) =
      mark :: insertCarriages newline carriage rest := by
  simp [insertCarriages, notNewline]

/-- No newline is left without a carriage return, not even at the beginning. -/
theorem head?_insertCarriages_ne (different : carriage ≠ newline) (marks : List α) :
    (insertCarriages newline carriage marks).head? ≠ some newline := by
  cases marks with
  | nil => simp [insertCarriages]
  | cons mark rest =>
      by_cases isNewline : mark = newline
      · subst isNewline
        simpa [insertCarriages_newline] using different
      · simpa [insertCarriages_cons_of_ne isNewline] using isNewline

/-- The carriage returns that are put in belong to the line ends and to no line. -/
theorem cutLines_insertCarriages (different : carriage ≠ newline)
    (unpaired : ¬ [carriage, newline] <:+: marks) :
    cutLines newline carriage (insertCarriages newline carriage marks) =
      cutLines newline carriage marks := by
  induction marks with
  | nil => rfl
  | cons mark rest ih =>
      have restUnpaired : ¬ [carriage, newline] <:+: rest := fun paired =>
        unpaired (List.infix_cons paired)
      by_cases isNewline : mark = newline
      · subst isNewline
        rw [insertCarriages_newline, cutLines_of_ending different ⟨rfl, rfl⟩, cutLines_newline,
          cutLines_newline, ih restUnpaired]
      · have notEnding : mark = carriage → rest.head? ≠ some newline := by
          rintro rfl nextIsNewline
          obtain ⟨more, rfl⟩ := List.head?_eq_some_iff.mp nextIsNewline
          exact unpaired ⟨[], more, rfl⟩
        rw [insertCarriages_cons_of_ne isNewline,
          cutLines_cons_of_ne isNewline fun _ => head?_insertCarriages_ne different rest,
          cutLines_cons_of_ne isNewline notEnding, ih restUnpaired]

/-- A newline behind a last line that is not ended adds no line. -/
theorem cutLines_append_newline {last : α} (isLast : marks.getLast? = some last)
    (notNewline : last ≠ newline) (notCarriage : last ≠ carriage) :
    cutLines newline carriage (marks ++ [newline]) = cutLines newline carriage marks := by
  induction marks with
  | nil => cases isLast
  | cons mark rest ih =>
      cases rest with
      | nil =>
          have single : mark = last := Option.some.inj isLast
          subst single
          have notEnding (more : List α) : mark = carriage → more.head? ≠ some newline :=
            fun isCarriage => absurd isCarriage notCarriage
          rw [List.singleton_append, cutLines_cons_of_ne notNewline (notEnding _),
            cutLines_cons_of_ne notNewline (notEnding _), cutLines_newline]
          rfl
      | cons next others =>
          have tail := ih ((List.getLast?_cons_cons).symm.trans isLast)
          have sameHead : (next :: others ++ [newline]).head? = (next :: others).head? := rfl
          rw [List.cons_append]
          by_cases isNewline : mark = newline
          · subst isNewline
            rw [cutLines_newline, cutLines_newline, tail]
          · by_cases ending : mark = carriage ∧ (next :: others).head? = some newline
            · rw [cutLines_of_ending isNewline ending,
                cutLines_of_ending isNewline (sameHead ▸ ending), tail]
            · have notEnding : mark = carriage → (next :: others).head? ≠ some newline :=
                fun isCarriage headEq => ending ⟨isCarriage, headEq⟩
              rw [cutLines_cons_of_ne isNewline notEnding,
                cutLines_cons_of_ne isNewline (sameHead ▸ notEnding), tail]

end Cutting

/-- The text with a carriage return in front of every newline. -/
def withCarriages (text : String) : String :=
  String.ofList (insertCarriages '\n' '\r' text.toList)

/-- The same text with other line ends: either every newline has got a carriage return, where
none had one before, or the last line has been ended. -/
inductive Reended (text : String) : String → Prop
  | carriages (unpaired : ¬ ['\r', '\n'] <:+: text.toList) : Reended text (withCarriages text)
  | final {last : Char} (isLast : text.toList.getLast? = some last) (notNewline : last ≠ '\n')
      (notCarriage : last ≠ '\r') : Reended text (text ++ "\n")

theorem Reended.lines_eq {text other : String} (reended : Reended text other) :
    lines other = lines text := by
  cases reended with
  | carriages unpaired =>
      rw [lines, lines, withCarriages, String.toList_ofList,
        cutLines_insertCarriages (by decide) unpaired]
  | final isLast notNewline notCarriage =>
      have ended : (text ++ "\n").toList = text.toList ++ ['\n'] := String.toList_append
      rw [lines, lines, ended, cutLines_append_newline isLast notNewline notCarriage]

end Text

/-- A source with other line ends states the same or is refused for the same reason, and an
output with other line ends has the same failures. -/
theorem reended_leaves_results {text other : String} (reended : Text.Reended text other) :
    (∀ directory name,
      Expectations.ofCase (TestCase.ofSource directory name other) =
        Expectations.ofCase (TestCase.ofSource directory name text)) ∧
    ∀ expectations termination duration,
      Verification.verify expectations ⟨other, termination, duration⟩ =
        Verification.verify expectations ⟨text, termination, duration⟩ := by
  have linesEq := reended.lines_eq
  constructor
  · intro directory name
    rw [TestCase.ofSource, TestCase.ofSource, linesEq]
  · intro expectations termination duration
    simp only [Verification.verify, Execution.lines, linesEq]

/-- A carriage return inside of a line, and one at the end of the text, stay where they are. -/
theorem reended_leaves_inner_carriages :
    Text.withCarriages "# CHECK: a\rb\n\n# EXIT 7\r" =
      "# CHECK: a\rb\r\n\r\n# EXIT 7\r" ∧
    Expectations.ofCase (TestCase.ofSource "/work" "case.tcf"
        "# CHECK: a\rb\r\n\r\n# EXIT 7\r") =
      .ok ⟨[⟨1, "a\rb"⟩], 7, false⟩ ∧
    Expectations.ofCase (TestCase.ofSource "/work" "case.tcf"
        "# CHECK: a\rb\r\n\r\n# EXIT 7\r") =
      Expectations.ofCase (TestCase.ofSource "/work" "case.tcf"
        "# CHECK: a\rb\n\n# EXIT 7\r") := by
  have unpaired : ¬ ['\r', '\n'] <:+: "# CHECK: a\rb\n\n# EXIT 7\r".toList := by
    rw [← Text.occursIn_iff]
    decide
  have carriages : Text.withCarriages "# CHECK: a\rb\n\n# EXIT 7\r" =
      "# CHECK: a\rb\r\n\r\n# EXIT 7\r" := by
    decide
  obtain ⟨sameStated, -⟩ := reended_leaves_results (.carriages unpaired)
  rw [carriages] at sameStated
  exact ⟨carriages, by rfl, sameStated "/work" "case.tcf"⟩

end CaseHarness
