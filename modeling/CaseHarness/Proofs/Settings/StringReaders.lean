import CaseHarness.Proofs.Settings.Strings

/-!
# The four readers of strings

Each reader of strings does at every kind of text what its quoting demands.  Only the reader of
strings of many lines with escapes has a state: while it passes blanks and line ends behind a
backslash it stops at the first solid text, where it goes on as if it had not passed any.
-/

namespace CaseHarness.Settings.File

open Toml (Quoting IsText IsSpace Spaces LineEnd Gap Solid)

variable {text rest : List Char} {character : Char} {read : List Char → Reading (List Char)}

theorem bind_prepend (escaped : Option Char) (rest : List Char) :
    ((escaped.map (·, rest)).bind fun (character, others) =>
      prepend (some character) (read others)) = prepend escaped (read rest) := by
  cases escaped <;> simp [prepend]

theorem isText_of_isSpace (blank : IsSpace character) : IsText character := by
  rcases blank with rfl | rfl
  · exact Or.inr (by decide)
  · exact Or.inl rfl

theorem isText_backslash : IsText '\\' :=
  Or.inr (by decide)

theorem not_isText_carriage : ¬ IsText '\r' := by
  simp [IsText]

theorem ne_of_isText {first second : Char} (isText : IsText first) (noText : ¬ IsText second) :
    first ≠ second :=
  fun same => noText (same ▸ isText)

theorem isText_of_mark (quoting : Quoting) : IsText quoting.mark := by
  rcases mark_cases quoting with markEq | markEq <;> rw [markEq] <;> exact Or.inr (by decide)

theorem reads_basic : Reads ⟨true, false⟩ basic where
  nil := rfl
  plain character rest isText noMark noEscape := by
    have noMark : character ≠ '"' := noMark
    have noEscape := noEscape rfl
    simp [basic, noEscape, isPlain_iff.mpr isText]
  escape rest _ _ := by
    unfold escape?
    split
    · rw [bind_prepend, basic]
    · rw [bind_prepend, basic]
    · rw [bind_prepend, basic]
    · rw [bind_prepend, basic]
      all_goals assumption
    · rfl
  close rest _ := rfl
  closeLines _ _ manyLines := by cases manyLines
  mark _ manyLines := by cases manyLines
  lineEnd _ _ manyLines := by cases manyLines
  continued _ _ _ _ manyLines := by cases manyLines
  foreign character rest noText _ := by
    have noMark : character ≠ '"' := (ne_of_isText (isText_of_mark ⟨true, false⟩) noText).symm
    have noEscape : character ≠ '\\' := (ne_of_isText isText_backslash noText).symm
    simp [basic, noEscape, isPlain_iff, noText]

theorem reads_literal : Reads ⟨false, false⟩ literal where
  nil := rfl
  plain character rest isText noMark _ := by
    have noMark : character ≠ '\x27' := noMark
    simp [literal, isPlain_iff.mpr isText]
  escape _ escapes := by cases escapes
  close rest _ := rfl
  closeLines _ _ manyLines := by cases manyLines
  mark _ manyLines := by cases manyLines
  lineEnd _ _ manyLines := by cases manyLines
  continued _ _ _ _ manyLines := by cases manyLines
  foreign character rest noText _ := by
    have noMark : character ≠ '\x27' :=
      (ne_of_isText (isText_of_mark ⟨false, false⟩) noText).symm
    simp [literal, isPlain_iff, noText]

/-- A character that neither begins a closing delimiter, an escape nor a line end of two
characters. -/
theorem basicLines_cons (trimming : Bool) (noMarks : ¬ ['"', '"', '"'] <+: character :: rest)
    (noEscape : character ≠ '\\') (noCarriage : ¬ ['\r', '\n'] <+: character :: rest) :
    basicLines trimming (character :: rest) =
      if character = '\n' ∨ isSpace character then
        if trimming then basicLines true rest
        else prepend (some character) (basicLines false rest)
      else if isPlain character then prepend (some character) (basicLines false rest)
      else none := by
  rw [basicLines]
  · simp [noEscape]
  all_goals intros; subst_vars; simp_all

theorem basicLines_gap {gap : List Char} (passed : Gap gap) (rest : List Char) :
    basicLines true (gap ++ rest) = basicLines true rest := by
  induction passed with
  | nil => rfl
  | @space character gap blank _ ih =>
      rw [List.cons_append]
      rcases blank with rfl | rfl <;> simp [basicLines, isSpace, ih]
  | lineEnd ends _ ih => cases ends <;> simp [basicLines, ih]

theorem basicLines_solid (solid : Solid text) : basicLines true text = basicLines false text := by
  have noSpace : ∀ character rest, text = character :: rest → isSpace character = false := by
    rintro character rest rfl
    simpa [← isSpace_iff] using solid.noSpace character rfl
  have noNewline : ∀ rest, text ≠ '\n' :: rest := by
    rintro rest rfl
    exact solid.noLineEnd _ .newline ⟨rest, rfl⟩
  have noCarriage : ∀ rest, text ≠ '\r' :: '\n' :: rest := by
    rintro rest rfl
    exact solid.noLineEnd _ .carriage ⟨rest, rfl⟩
  unfold basicLines
  split
  case h_9 rest => exact absurd rfl (noCarriage rest)
  case h_10 _ character rest _ _ _ _ _ _ _ _ =>
    have noNewline : character ≠ '\n' := fun isNewline => noNewline rest (isNewline ▸ rfl)
    simp [noNewline, noSpace character rest rfl]
  all_goals rfl

theorem basicLines_continued (trimming : Bool) (ends : endsLine (character :: rest) = true) :
    basicLines trimming ('\\' :: character :: rest) = basicLines true rest := by
  rw [basicLines, if_pos ends]
  all_goals
    intros
    subst_vars
    cases ends

theorem gap_of_spaces {spaces gap : List Char} (blank : Spaces spaces) (passed : Gap gap) :
    Gap (spaces ++ gap) := by
  induction spaces with
  | nil => exact passed
  | cons character others ih =>
      exact .space (blank character List.mem_cons_self)
        (ih fun other member => blank other (List.mem_cons_of_mem character member))

/-- At the end of a line a backslash passes over all that is blank. -/
theorem basicLines_backslash {spaces ending gap : List Char} (blank : Spaces spaces)
    (ends : LineEnd ending) (passed : Gap gap) (solid : Solid rest) :
    basicLines false ('\\' :: (spaces ++ ending ++ gap ++ rest)) = basicLines false rest := by
  have lineEnds : endsLine (spaces ++ ending ++ gap ++ rest) = true :=
    endsLine_eq_true_iff.mpr ⟨spaces, ending, gap ++ rest, blank, ends, by simp⟩
  -- The reader drops the first character behind the backslash, and what is left is a gap.
  have dropped : ∃ first left, spaces ++ ending ++ gap = first :: left ∧ Gap left := by
    cases spaces with
    | cons space others =>
        refine ⟨space, others ++ (ending ++ gap), by simp, ?_⟩
        exact gap_of_spaces (fun other member => blank other (List.mem_cons_of_mem _ member))
          (.lineEnd ends passed)
    | nil =>
        cases ends with
        | newline => exact ⟨'\n', gap, rfl, passed⟩
        | carriage => exact ⟨'\r', ['\n'] ++ gap, rfl, .lineEnd .newline passed⟩
  obtain ⟨first, left, gapEq, passedLeft⟩ := dropped
  rw [gapEq, List.cons_append] at lineEnds ⊢
  rw [basicLines_continued _ lineEnds, basicLines_gap passedLeft, basicLines_solid solid]

theorem reads_basicLines : Reads ⟨true, true⟩ (basicLines false) where
  nil := rfl
  plain character rest isText noMark noEscape := by
    have noMark : '"' ≠ character := Ne.symm noMark
    have noCarriage := (ne_of_isText isText not_isText_carriage).symm
    rw [basicLines_cons _ (by simp [noMark]) (noEscape rfl) (by simp [noCarriage])]
    simp [isPlain_iff.mpr isText]
  escape rest _ lineGoesOn := by
    have lineGoesOn := lineGoesOn rfl
    unfold escape?
    split
    · rw [bind_prepend, basicLines]
    · rw [bind_prepend, basicLines]
    · rw [bind_prepend, basicLines]
    · rw [bind_prepend, basicLines, if_neg (by simp [lineGoesOn])]
      all_goals assumption
    · rfl
  close _ manyLines := by cases manyLines
  closeLines marks rest _ known few := by
    have few : marks.length < 2 → rest.head? ≠ some '"' := few
    have known : marks ∈ [[], ['"'], ['"', '"']] := known
    simp only [List.mem_cons, List.not_mem_nil, or_false] at known
    rcases known with rfl | rfl | rfl
    · have few := few (by decide)
      cases rest <;> simp_all [basicLines, Quoting.mark]
    · have few := few (by decide)
      cases rest <;> simp_all [basicLines, Quoting.mark]
    · rfl
  mark rest _ few := by
    have few : ¬ ['"', '"'] <+: rest := few
    change basicLines false ('"' :: rest) = prepend (some '"') (basicLines false rest)
    rw [basicLines_cons _ (by simpa using few) (by decide) (by simp)]
    rfl
  lineEnd ending rest _ ends := by
    cases ends with
    | newline =>
        rw [List.singleton_append, basicLines_cons _ (by simp) (by decide) (by simp)]
        cases basicLines false rest <;> rfl
    | carriage =>
        rw [List.cons_append, List.singleton_append, basicLines]
        cases basicLines false rest <;> rfl
  continued _ _ _ _ _ _ := basicLines_backslash
  foreign character rest noText noLineEnd := by
    have noMark : '"' ≠ character := ne_of_isText (isText_of_mark ⟨true, true⟩) noText
    have noEscape : character ≠ '\\' := (ne_of_isText isText_backslash noText).symm
    have noNewline : character ≠ '\n' := by
      rintro rfl
      exact noLineEnd rfl _ .newline ⟨rest, rfl⟩
    have noSpace : ¬ isSpace character = true := fun blank =>
      noText (isText_of_isSpace (isSpace_iff.mp blank))
    rw [basicLines_cons _ (by simp [noMark]) noEscape (noLineEnd rfl _ .carriage)]
    simp [noNewline, noSpace, isPlain_iff, noText]

theorem literalLines_cons (noMarks : ¬ ['\x27', '\x27', '\x27'] <+: character :: rest)
    (noCarriage : ¬ ['\r', '\n'] <+: character :: rest) :
    literalLines (character :: rest) =
      if isPlain character ∨ character = '\n' then prepend (some character) (literalLines rest)
      else none := by
  rw [literalLines]
  all_goals intros; subst_vars; simp_all

theorem reads_literalLines : Reads ⟨false, true⟩ literalLines where
  nil := rfl
  plain character rest isText noMark noEscape := by
    have noMark : '\x27' ≠ character := Ne.symm noMark
    have noCarriage := (ne_of_isText isText not_isText_carriage).symm
    rw [literalLines_cons (by simp [noMark]) (by simp [noCarriage])]
    simp [isPlain_iff.mpr isText]
  escape _ escapes := by cases escapes
  close _ manyLines := by cases manyLines
  closeLines marks rest _ known few := by
    have few : marks.length < 2 → rest.head? ≠ some '\x27' := few
    have known : marks ∈ [[], ['\x27'], ['\x27', '\x27']] := known
    simp only [List.mem_cons, List.not_mem_nil, or_false] at known
    rcases known with rfl | rfl | rfl
    · have few := few (by decide)
      cases rest <;> simp_all [literalLines, Quoting.mark]
    · have few := few (by decide)
      cases rest <;> simp_all [literalLines, Quoting.mark]
    · rfl
  mark rest _ few := by
    have few : ¬ ['\x27', '\x27'] <+: rest := few
    change literalLines ('\x27' :: rest) = prepend (some '\x27') (literalLines rest)
    rw [literalLines_cons (by simpa using few) (by simp)]
    rfl
  lineEnd ending rest _ ends := by
    cases ends with
    | newline =>
        rw [List.singleton_append, literalLines_cons (by simp) (by simp)]
        cases literalLines rest <;> rfl
    | carriage =>
        rw [List.cons_append, List.singleton_append, literalLines]
        cases literalLines rest <;> rfl
  continued _ _ _ _ _ escapes := by cases escapes
  foreign character rest noText noLineEnd := by
    have noMark : '\x27' ≠ character := ne_of_isText (isText_of_mark ⟨false, true⟩) noText
    have noNewline : character ≠ '\n' := by
      rintro rfl
      exact noLineEnd rfl _ .newline ⟨rest, rfl⟩
    rw [literalLines_cons (by simp [noMark]) (noLineEnd rfl _ .carriage)]
    simp [noNewline, isPlain_iff, noText]

/-- The reader behind an opening delimiter. -/
def reader (quoting : Quoting) : List Char → Reading (List Char) :=
  match quoting with
  | ⟨true, true⟩ => basicLines false
  | ⟨true, false⟩ => basic
  | ⟨false, true⟩ => literalLines
  | ⟨false, false⟩ => literal

theorem reads_reader (quoting : Quoting) : Reads quoting (reader quoting) :=
  match quoting with
  | ⟨true, true⟩ => reads_basicLines
  | ⟨true, false⟩ => reads_basic
  | ⟨false, true⟩ => reads_literalLines
  | ⟨false, false⟩ => reads_literal

end CaseHarness.Settings.File
