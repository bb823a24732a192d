import CaseHarness.Proofs.Text.DecodedLines

/-!
# Pieces between newlines

A sequence is divided at every newline.  What a newline ends is a piece, and so is the rest
behind the last newline, unless it is empty.  The lines of a text are its pieces, where each
piece that a newline ends has lost one carriage return at its end.  What stands in front of a
newline has no part in the pieces behind it.  The rows of a text are its pieces as they stand,
and a text whose last row is ended leaves the rows of what is printed behind it alone.
-/

namespace CaseHarness.Text

variable {α : Type} [DecidableEq α] {newline carriage : α} {finish : List α → List α}
  {front back line marks : List α}

/-- The pieces between newlines.  Each piece that a newline ends is finished in a given way. -/
def pieces (newline : α) (finish : List α → List α) (marks : List α) : List (List α) :=
  let divided := marks.splitOn newline
  divided.dropLast.map finish ++ divided.getLast?.toList.filter fun rest => rest ≠ []

/-- Drop one carriage return at the end. -/
def dropCarriage (carriage : α) (line : List α) : List α :=
  if line.getLast? = some carriage then line.dropLast else line

@[simp]
theorem pieces_nil : pieces newline finish [] = [] :=
  rfl

/-- Behind a newline the pieces begin anew. -/
theorem pieces_append_newline (front back : List α) :
    pieces newline finish (front ++ newline :: back) =
      (front.splitOn newline).map finish ++ pieces newline finish back := by
  have divided := List.splitOn_append_cons_self (a := newline) front back
  rcases List.eq_nil_or_concat (back.splitOn newline) with nothing | ⟨ended, rest, backEq⟩
  · exact absurd nothing (List.splitOn_ne_nil newline back)
  · rw [backEq, List.concat_eq_append, ← List.append_assoc] at divided
    rw [List.concat_eq_append] at backEq
    simp [pieces, divided, backEq]

theorem pieces_line_append (clean : newline ∉ line) (back : List α) :
    pieces newline finish (line ++ newline :: back) =
      finish line :: pieces newline finish back := by
  rw [pieces_append_newline, List.splitOn_eq_singleton clean]
  rfl

theorem pieces_of_notMem (clean : newline ∉ line) :
    pieces newline finish line = if line = [] then [] else [line] := by
  simp only [pieces, List.splitOn_eq_singleton clean]
  by_cases empty : line = [] <;> simp [empty]

/-- A sequence is read line by line until no newline is left. -/
theorem lines_induction (newline : α) {motive : List α → Prop}
    (last : ∀ line, newline ∉ line → motive line)
    (ended : ∀ line back, newline ∉ line → motive back → motive (line ++ newline :: back))
    (marks : List α) : motive marks := by
  induction lengthEq : marks.length using Nat.strongRecOn generalizing marks with
  | ind length ih =>
      by_cases mem : newline ∈ marks
      · obtain ⟨line, back, rfl, clean⟩ := List.eq_append_cons_of_mem mem
        have shorter : back.length < length := by
          rw [← lengthEq, List.length_append, List.length_cons]
          omega
        exact ended line back clean (ih back.length shorter back rfl)
      · exact last marks mem

/-- The first line loses a carriage return that stands before its newline. -/
theorem cutLines_line_append (different : carriage ≠ newline) (clean : newline ∉ line)
    (back : List α) :
    cutLines newline carriage (line ++ newline :: back) =
      dropCarriage carriage line :: cutLines newline carriage back := by
  rcases List.eq_nil_or_concat line with rfl | ⟨body, last, rfl⟩
  · exact cutLines_newline newline carriage back
  rw [List.concat_eq_append] at clean ⊢
  have bodyClean : newline ∉ body := fun mem => clean (List.mem_append_left _ mem)
  have lastNe : last ≠ newline := fun same => clean (by simp [same])
  have joined : cutLines newline carriage (body ++ last :: newline :: back) =
      prependLine body (cutLines newline carriage (last :: newline :: back)) :=
    cutLines_append bodyClean fun _ => by simpa using lastNe
  rw [List.append_assoc, List.singleton_append, joined]
  by_cases isCarriage : last = carriage
  · subst isCarriage
    rw [cutLines_of_ending lastNe ⟨rfl, rfl⟩, cutLines_newline]
    simp [prependLine, dropCarriage]
  · rw [cutLines_cons_of_ne lastNe fun same => absurd same isCarriage, cutLines_newline]
    simp [prependLine, dropCarriage, isCarriage]

theorem cutLines_eq_pieces (different : carriage ≠ newline) (marks : List α) :
    cutLines newline carriage marks = pieces newline (dropCarriage carriage) marks := by
  induction marks using lines_induction newline with
  | last line clean =>
      have whole : cutLines newline carriage (line ++ []) =
          prependLine line (cutLines newline carriage []) :=
        cutLines_append clean fun _ => nofun
      rw [List.append_nil] at whole
      rw [whole, pieces_of_notMem clean]
      rfl
  | ended line back clean ih =>
      rw [cutLines_line_append different clean, pieces_line_append clean, ih]

/-- The lines of a file of bytes. -/
def byteLines (bytes : List UInt8) : List (List UInt8) :=
  pieces 10 (dropCarriage 13) bytes

/-- Reading a file and dividing it into lines may be done in either order. -/
theorem lines_decode_eq_map_byteLines (bytes : List UInt8) :
    lines (Utf8.decode bytes) = (byteLines bytes).map Utf8.decode := by
  rw [Utf8.lines_decode, cutLines_eq_pieces (by decide), byteLines]

theorem byteLines_append_newline (front back : List UInt8) :
    byteLines (front ++ 10 :: back) = byteLines (front ++ [10]) ++ byteLines back := by
  simp only [byteLines, pieces_append_newline, pieces_nil, List.append_nil]

section Rows

variable {text other : String}

/-- The rows of a text: what stands between its newlines, carriage returns included. -/
def rows (text : String) : List String :=
  (pieces '\n' id text.toList).map String.ofList

/-- There is no newline in a text. -/
def OneRow (text : String) : Prop :=
  '\n' ∉ text.toList

/-- The last row of a text has its newline. -/
def Ended (text : String) : Prop :=
  ∀ last ∈ text.toList.getLast?, last = '\n'

theorem oneRow_ofList {characters : List Char} (clean : '\n' ∉ characters) :
    OneRow (String.ofList characters) := by
  rwa [OneRow, String.toList_ofList]

theorem OneRow.append (first : OneRow text) (second : OneRow other) : OneRow (text ++ other) := by
  rw [OneRow, String.toList_append, List.mem_append]
  exact fun mem => mem.elim first second

theorem Ended.append (first : Ended text) (second : Ended other) : Ended (text ++ other) := by
  intro last mem
  rw [String.toList_append, List.getLast?_append] at mem
  rcases Option.or_eq_some_iff.mp mem with lastOther | ⟨-, lastText⟩
  · exact second last lastOther
  · exact first last lastText

end Rows

end CaseHarness.Text
