import CaseHarness.Text.Blank
import Mathlib.Data.List.TakeWhile

/-!
# Text without its outer white space

Trimming is described by its result: the trimmed text stands in the whole text between two
stretches of white space, and neither of its own ends is white space.  Exactly one text has
this property, whatever blanks there are inside of it.
-/

namespace CaseHarness.Text

variable {value text before behind : List Char}

/-- A stretch of white space. -/
def Blank (characters : List Char) : Prop :=
  ∀ character ∈ characters, isBlank character = true

/-- A text that stands in a whole one between white space and neither begins nor ends with
white space. -/
structure TrimsTo (value text : List Char) : Prop where
  between : ∃ before behind, value = before ++ text ++ behind ∧ Blank before ∧ Blank behind
  begins : ∀ first ∈ text.head?, isBlank first = false
  ends : ∀ last ∈ text.getLast?, isBlank last = false

theorem blank_takeWhile (characters : List Char) : Blank (characters.takeWhile isBlank) :=
  fun _ mem => List.all_eq_true.mp List.all_takeWhile _ mem

theorem Blank.reverse (blank : Blank before) : Blank before.reverse :=
  fun character mem => blank character (List.mem_reverse.mp mem)

theorem isBlank_head?_dropWhile {characters : List Char} {first : Char}
    (head : first ∈ (characters.dropWhile isBlank).head?) : isBlank first = false := by
  have stops := List.head?_dropWhile_not isBlank characters
  rwa [Option.mem_def.mp head] at stops

theorem trimEnd_append (blank : Blank behind) : trimEnd (text ++ behind) = trimEnd text := by
  rw [trimEnd, List.reverse_append, List.dropWhile_append_of_pos blank.reverse]
  rfl

/-- White space in front makes no difference. -/
theorem trim_append_left (blank : Blank before) : trim (before ++ text) = trim text := by
  rw [trim, List.dropWhile_append_of_pos blank]
  rfl

/-- White space at the end makes no difference. -/
theorem trim_append_right (blank : Blank behind) : trim (text ++ behind) = trim text := by
  unfold trim
  rw [List.dropWhile_append]
  split
  · next allBlank =>
    have nothing : text.dropWhile isBlank = [] := List.isEmpty_iff.mp allBlank
    rw [List.dropWhile_eq_nil_iff.mpr blank, nothing]
  · exact trimEnd_append blank

/-- What is removed at the end is white space. -/
theorem exists_trimEnd_append (characters : List Char) :
    ∃ behind, characters = trimEnd characters ++ behind ∧ Blank behind := by
  refine ⟨(characters.reverse.takeWhile isBlank).reverse, ?_, (blank_takeWhile _).reverse⟩
  rw [trimEnd, ← List.reverse_append, List.takeWhile_append_dropWhile, List.reverse_reverse]

theorem trimsTo_trim (value : List Char) : TrimsTo value (trim value) := by
  obtain ⟨behind, restEq, blankBehind⟩ := exists_trimEnd_append (value.dropWhile isBlank)
  change value.dropWhile isBlank = trim value ++ behind at restEq
  constructor
  · refine ⟨value.takeWhile isBlank, behind, ?_, blank_takeWhile value, blankBehind⟩
    rw [List.append_assoc, ← restEq, List.takeWhile_append_dropWhile]
  · intro first head
    have headOfRest : first ∈ (value.dropWhile isBlank).head? := by
      rw [restEq, List.head?_append, Option.mem_def.mp head]
      rfl
    exact isBlank_head?_dropWhile headOfRest
  · intro last isLast
    rw [trim, trimEnd, List.getLast?_reverse] at isLast
    exact isBlank_head?_dropWhile isLast

/-- The trimmed text is the one that stands between the white space. -/
theorem trim_eq_iff : trim value = text ↔ TrimsTo value text := by
  constructor
  · rintro rfl
    exact trimsTo_trim value
  · rintro ⟨⟨before, behind, rfl, blankBefore, blankBehind⟩, begins, ends⟩
    rw [trim_append_right blankBehind, trim_append_left blankBefore]
    exact trim_eq_self begins ends

end CaseHarness.Text
