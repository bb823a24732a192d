/-!
# Lines of a text

A line ends at a newline or at the end of the text.  One carriage return that
stands directly before the newline belongs to the line end; every other
carriage return is an ordinary character.  Nothing follows a final newline, so
a text that ends in one has no empty last line.

The cut is stated for any two marks, so that the same rule applies to the
characters of a text and to the bytes of a file.
-/

namespace CaseHarness.Text

variable {α : Type} [DecidableEq α]

/-- Cut a sequence into lines at `newline`, dropping one `carriage` directly before it. -/
def cutLines (newline carriage : α) : List α → List (List α)
  | [] => []
  | mark :: rest =>
      if mark = newline then
        [] :: cutLines newline carriage rest
      else if mark = carriage ∧ rest.head? = some newline then
        cutLines newline carriage rest
      else
        match cutLines newline carriage rest with
        | [] => [[mark]]
        | line :: lines => (mark :: line) :: lines

def lines (text : String) : List String :=
  (cutLines '\n' '\r' text.toList).map String.ofList

@[simp]
theorem cutLines_nil (newline carriage : α) : cutLines newline carriage [] = [] :=
  rfl

/-- A newline always ends a line. -/
@[simp]
theorem cutLines_newline (newline carriage : α) (rest : List α) :
    cutLines newline carriage (newline :: rest) = [] :: cutLines newline carriage rest := by
  simp [cutLines]

/-- A line never holds the newline that ended it. -/
theorem newline_notMem_of_mem_cutLines {newline carriage : α} {marks line : List α}
    (lineMem : line ∈ cutLines newline carriage marks) : newline ∉ line := by
  induction marks generalizing line with
  | nil => simp at lineMem
  | cons mark rest ih =>
      unfold cutLines at lineMem
      split at lineMem
      · rcases List.mem_cons.mp lineMem with rfl | tailMem
        · simp
        · exact ih tailMem
      · next notNewline =>
        split at lineMem
        · exact ih lineMem
        · cases cutEq : cutLines newline carriage rest with
          | nil =>
              simp only [cutEq, List.mem_singleton] at lineMem
              subst lineMem
              simpa using fun equal => notNewline equal.symm
          | cons first others =>
              rw [cutEq] at ih
              simp only [cutEq, List.mem_cons] at lineMem
              rcases lineMem with rfl | tailMem
              · have firstClean : newline ∉ first := ih List.mem_cons_self
                simp only [List.mem_cons, firstClean, or_false]
                exact fun equal => notNewline equal.symm
              · exact ih (by simp [tailMem])

end CaseHarness.Text
