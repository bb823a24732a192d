import CaseHarness.Proofs.Settings.Integers
import Mathlib.Data.List.TakeWhile

/-!
# Strings and their readers

What a reader of strings does at each kind of text is said once for all four quotings.  A reader
that does so takes exactly what the grammar calls the body of a string, up to the closing
delimiter.  A string of many lines may end with one or two marks, so there it agrees with the
grammar only if no further mark follows the delimiter.
-/

namespace CaseHarness.Settings.File

open Text.Numeral (digitIn?)
open Toml (Digits FixedDigits Escape Quoting Body Quoted IsText IsSpace Spaces LineEnd Gap Solid)

variable {content body text rest : List Char} {character : Char}

theorem isPlain_iff : isPlain character = true ↔ IsText character := by
  simp [isPlain, IsText]

theorem isSpace_iff : isSpace character = true ↔ IsSpace character := by
  simp [isSpace, IsSpace]

/-! ## Escapes -/

/-- One digit more of a code. -/
def addDigit (value : Option Nat) (digit : Char) : Option Nat :=
  match value, digitIn? 16 digit with
  | some code, some next => some (code * 16 + next)
  | _, _ => none

theorem foldl_addDigit_none (digits : List Char) : digits.foldl addDigit none = none := by
  induction digits with
  | nil => rfl
  | cons _ _ ih => exact ih

/-- The digits of a code are those of a number, but they stand without underscores. -/
theorem foldl_addDigit (code : Nat) (digits : List Char) :
    digits.foldl addDigit (some code) =
      if '_' ∈ digits then none else groupedFrom 16 code digits := by
  induction digits generalizing code with
  | nil => rfl
  | cons character rest ih =>
      cases isDigit : digitIn? 16 character with
      | none =>
          have stopped : addDigit (some code) character = none := by simp [addDigit, isDigit]
          rw [List.foldl_cons, stopped, foldl_addDigit_none]
          by_cases mark : '_' = character
          · subst mark
            simp
          · simp [groupedFrom, isDigit, Ne.symm mark]
      | some digit =>
          have noMark : '_' ≠ character := by
            rintro rfl
            rw [digitIn?_underscore] at isDigit
            cases isDigit
          have added : addDigit (some code) character = some (code * 16 + digit) := by
            simp [addDigit, isDigit]
          rw [List.foldl_cons, added, ih, groupedFrom_digit isDigit]
          simp [noMark]

theorem coded?_eq_some_iff {first : Char} {others : List Char} :
    coded? (first :: others) = some character ↔
      ∃ number, FixedDigits 16 (others.length + 1) number (first :: others) ∧
        number.isValidChar ∧ Char.ofNat number = character := by
  have folded : ∀ number, (first :: others).foldl addDigit (some 0) = some number ↔
      FixedDigits 16 (others.length + 1) number (first :: others) := by
    intro number
    rw [foldl_addDigit]
    constructor
    · intro read
      split_ifs at read with mark
      have noMark : first ≠ '_' := fun isMark => mark (isMark ▸ List.mem_cons_self)
      rw [groupedFrom_zero noMark, grouped?_eq_some_iff (by decide)] at read
      exact ⟨read, mark, rfl⟩
    · rintro ⟨digits, noMark, -⟩
      have firstNoMark : first ≠ '_' := fun isMark => noMark (isMark ▸ List.mem_cons_self)
      rw [if_neg noMark, groupedFrom_zero firstNoMark, grouped?_eq_some_iff (by decide)]
      exact digits
  constructor
  · intro read
    obtain ⟨number, isNumber, scalar⟩ := Option.bind_eq_some_iff.mp read
    split_ifs at scalar with isScalar
    cases scalar
    exact ⟨number, (folded number).mp isNumber, isScalar, rfl⟩
  · rintro ⟨number, digits, isScalar, rfl⟩
    exact Option.bind_eq_some_iff.mpr ⟨number, (folded number).mpr digits, if_pos isScalar⟩

/-- The character that an escape means, and what follows the escape. -/
def escape? : List Char → Reading Char
  | 'x' :: a :: b :: rest => (coded? [a, b]).map (·, rest)
  | 'u' :: a :: b :: c :: d :: rest => (coded? [a, b, c, d]).map (·, rest)
  | 'U' :: a :: b :: c :: d :: e :: f :: g :: h :: rest =>
      (coded? [a, b, c, d, e, f, g, h]).map (·, rest)
  | mark :: rest => (escaped? mark).map (·, rest)
  | [] => none

theorem escaped?_eq_some_iff {mark : Char} :
    escaped? mark = some character ↔
      (mark, character) ∈ [('b', '\x08'), ('t', '\t'), ('n', '\n'), ('f', '\x0c'), ('r', '\r'),
        ('e', '\x1b'), ('"', '"'), ('\\', '\\')] := by
  constructor
  · intro meant
    unfold escaped? at meant
    split at meant <;> cases meant <;> simp
  · intro known
    simp only [List.mem_cons, Prod.mk.injEq, List.not_mem_nil, or_false] at known
    rcases known with ⟨rfl, rfl⟩ | ⟨rfl, rfl⟩ | ⟨rfl, rfl⟩ | ⟨rfl, rfl⟩ | ⟨rfl, rfl⟩ | ⟨rfl, rfl⟩ |
      ⟨rfl, rfl⟩ | ⟨rfl, rfl⟩ <;> rfl

theorem escape_of_coded {mark first : Char} {others : List Char}
    (coded : coded? (first :: others) = some character)
    (known : (mark, others.length + 1) ∈ [('x', 2), ('u', 4), ('U', 8)]) :
    Escape character (mark :: first :: others) := by
  obtain ⟨number, digits, scalar, rfl⟩ := coded?_eq_some_iff.mp coded
  exact .code known digits scalar

theorem escape?_eq_some_iff :
    escape? text = some (character, rest) ↔
      ∃ escape, Escape character escape ∧ text = escape ++ rest := by
  constructor
  · intro read
    unfold escape? at read
    split at read
    case h_5 => cases read
    all_goals
      simp only [Option.map_eq_some_iff, Prod.mk.injEq] at read
      obtain ⟨_, meant, rfl, rfl⟩ := read
    · exact ⟨_ :: [_, _], escape_of_coded meant (by simp), rfl⟩
    · exact ⟨_ :: [_, _, _, _], escape_of_coded meant (by simp), rfl⟩
    · exact ⟨_ :: [_, _, _, _, _, _, _, _], escape_of_coded meant (by simp), rfl⟩
    · exact ⟨[_], .letter (escaped?_eq_some_iff.mp meant), rfl⟩
  · rintro ⟨escape, escaped, rfl⟩
    cases escaped with
    | letter known =>
        simp only [List.mem_cons, Prod.mk.injEq, List.not_mem_nil, or_false] at known
        rcases known with ⟨rfl, rfl⟩ | ⟨rfl, rfl⟩ | ⟨rfl, rfl⟩ | ⟨rfl, rfl⟩ | ⟨rfl, rfl⟩ |
          ⟨rfl, rfl⟩ | ⟨rfl, rfl⟩ | ⟨rfl, rfl⟩ <;> rfl
    | @code mark width number digits known coded scalar =>
        have read : coded? digits = some (Char.ofNat number) := by
          obtain ⟨_, first, others, rfl, -⟩ := exists_first_digit coded.digits
          obtain rfl := coded.length
          exact coded?_eq_some_iff.mpr ⟨number, coded, scalar, rfl⟩
        simp only [List.mem_cons, Prod.mk.injEq, List.not_mem_nil, or_false] at known
        rcases known with ⟨rfl, rfl⟩ | ⟨rfl, rfl⟩ | ⟨rfl, rfl⟩
        · obtain ⟨a, b, rfl⟩ := List.length_eq_two.mp coded.length
          simp [escape?, read]
        · match digits, coded.length with
          | [a, b, c, d], _ => simp [escape?, read]
        · match digits, coded.length with
          | [a, b, c, d, e, f, g, h], _ => simp [escape?, read]

/-! ## Readers of strings -/

theorem length_pos_of_lineEnd {ending : List Char} (ends : LineEnd ending) : 0 < ending.length := by
  cases ends <;> exact Nat.succ_pos _

theorem dropWhile_isSpace {spaces : List Char} (blank : Spaces spaces) (rest : List Char) :
    (spaces ++ rest).dropWhile isSpace = rest.dropWhile isSpace :=
  List.dropWhile_append_of_pos fun character member => isSpace_iff.mpr (blank character member)

theorem spaces_takeWhile (text : List Char) : Spaces (text.takeWhile isSpace) :=
  fun _ member => isSpace_iff.mp (List.mem_takeWhile_imp member)

theorem endsLine_eq_true_iff :
    endsLine text = true ↔
      ∃ spaces ending rest, Spaces spaces ∧ LineEnd ending ∧ text = spaces ++ (ending ++ rest) := by
  constructor
  · intro ends
    have blank := spaces_takeWhile text
    have parts := List.takeWhile_append_dropWhile (p := isSpace) (l := text)
    unfold endsLine at ends
    split at ends
    · next rest solidEq =>
      exact ⟨_, ['\n'], rest, blank, .newline, by simpa [solidEq] using parts.symm⟩
    · next rest solidEq =>
      exact ⟨_, ['\r', '\n'], rest, blank, .carriage, by simpa [solidEq] using parts.symm⟩
    · cases ends
  · rintro ⟨spaces, ending, rest, blank, ends, rfl⟩
    unfold endsLine
    rw [dropWhile_isSpace blank]
    cases ends <;> rfl

theorem endsLine_escape {escape : List Char} (escaped : Escape character escape)
    (rest : List Char) : endsLine (escape ++ rest) = false := by
  have marks : ∃ mark digits, escape = mark :: digits ∧
      mark ∈ ['b', 't', 'n', 'f', 'r', 'e', '"', '\\', 'x', 'u', 'U'] := by
    cases escaped with
    | letter known =>
        exact ⟨_, [], rfl, List.mem_append_left _ (List.mem_map_of_mem (f := Prod.fst) known)⟩
    | @code mark _ _ digits known _ _ =>
        exact ⟨mark, digits, rfl, List.mem_append_right ['b', 't', 'n', 'f', 'r', 'e', '"', '\\']
          (List.mem_map_of_mem (f := Prod.fst) known)⟩
  obtain ⟨mark, digits, rfl, known⟩ := marks
  have solid : ∀ mark ∈ ['b', 't', 'n', 'f', 'r', 'e', '"', '\\', 'x', 'u', 'U'],
      isSpace mark = false ∧ mark ≠ '\n' ∧ mark ≠ '\r' := List.all_iff_forall_prop.mp (by decide)
  obtain ⟨noSpace, noNewline, noCarriage⟩ := solid mark known
  simp [endsLine, noSpace, noNewline, noCarriage]

theorem prepend_eq_some_iff {reading : Reading (List Char)} :
    prepend (some character) reading = some (content, rest) ↔
      ∃ others, reading = some (others, rest) ∧ content = character :: others := by
  unfold prepend
  split <;> simp_all [eq_comm, and_comm]

/-- What a reader of strings does at each kind of text. -/
structure Reads (quoting : Quoting) (read : List Char → Reading (List Char)) : Prop where
  nil : read [] = none
  plain : ∀ character rest, IsText character → character ≠ quoting.mark →
    (quoting.escapes = true → character ≠ '\\') →
    read (character :: rest) = prepend (some character) (read rest)
  escape : ∀ rest, quoting.escapes = true → (quoting.manyLines = true → endsLine rest = false) →
    read ('\\' :: rest) =
      (escape? rest).bind fun (character, others) => prepend (some character) (read others)
  close : ∀ rest, quoting.manyLines = false → read (quoting.mark :: rest) = some ([], rest)
  closeLines : ∀ marks rest, quoting.manyLines = true →
    marks ∈ [[], [quoting.mark], [quoting.mark, quoting.mark]] →
    (marks.length < 2 → rest.head? ≠ some quoting.mark) →
    read (marks ++ (quoting.mark :: quoting.mark :: quoting.mark :: rest)) = some (marks, rest)
  mark : ∀ rest, quoting.manyLines = true → ¬ [quoting.mark, quoting.mark] <+: rest →
    read (quoting.mark :: rest) = prepend (some quoting.mark) (read rest)
  lineEnd : ∀ ending rest, quoting.manyLines = true → LineEnd ending →
    read (ending ++ rest) = (read rest).map fun (content, others) => (ending ++ content, others)
  continued : ∀ spaces ending gap rest, quoting.manyLines = true → quoting.escapes = true →
    Spaces spaces → LineEnd ending → Gap gap → Solid rest →
    read ('\\' :: (spaces ++ ending ++ gap ++ rest)) = read rest
  foreign : ∀ character rest, ¬ IsText character →
    (quoting.manyLines = true → ∀ ending, LineEnd ending → ¬ ending <+: character :: rest) →
    read (character :: rest) = none

variable {quoting : Quoting} {read : List Char → Reading (List Char)}

theorem delimiter_of_manyLines (manyLines : quoting.manyLines = true) :
    quoting.delimiter = [quoting.mark, quoting.mark, quoting.mark] :=
  if_pos manyLines

theorem exists_delimiter (quoting : Quoting) :
    ∃ more, quoting.delimiter = quoting.mark :: more := by
  cases manyLines : quoting.manyLines <;> simp [Quoting.delimiter, manyLines]

theorem mark_cases (quoting : Quoting) : quoting.mark = '"' ∨ quoting.mark = '\x27' := by
  cases escapes : quoting.escapes <;> simp [Quoting.mark, escapes]

theorem mark_notMem_lineEnd (quoting : Quoting) {ending : List Char} (ends : LineEnd ending) :
    quoting.mark ∉ ending := by
  cases ends <;> rcases mark_cases quoting with markEq | markEq <;> simp [markEq]

/-- A closing delimiter does not complete a line end. -/
theorem noLineEnd_append (noLineEnd : ∀ ending, LineEnd ending → ¬ ending <+: text) :
    ∀ ending, LineEnd ending → ¬ ending <+: text ++ (quoting.delimiter ++ rest) := by
  intro ending ends begins
  have noMark := mark_notMem_lineEnd quoting ends
  obtain ⟨more, delimiterEq⟩ := exists_delimiter quoting
  obtain ⟨behind, allEq⟩ := begins
  rcases List.append_eq_append_iff.mp allEq with ⟨inText, textEq, -⟩ | ⟨common, endingEq, commonEq⟩
  · exact noLineEnd ending ends ⟨inText, textEq.symm⟩
  · cases common with
    | nil => exact noLineEnd ending ends ⟨[], by simp [endingEq]⟩
    | cons first others =>
        rw [delimiterEq] at commonEq
        refine noMark ?_
        rw [endingEq, (List.cons.inj commonEq).1]
        simp

theorem solid_append (solid : Solid text) : Solid (text ++ (quoting.delimiter ++ rest)) where
  noSpace := by
    obtain ⟨more, delimiterEq⟩ := exists_delimiter quoting
    cases text with
    | nil =>
        intro character headEq
        obtain rfl : quoting.mark = character := by simpa [delimiterEq] using headEq
        rcases mark_cases quoting with markEq | markEq <;> simp [markEq, IsSpace]
    | cons first others => exact solid.noSpace
  noLineEnd := noLineEnd_append solid.noLineEnd

/-- The reader takes all bodies of the grammar. -/
theorem Reads.read_body (reads : Reads quoting read) (isBody : Body quoting content body)
    (follow : quoting.manyLines = true → rest.head? ≠ some quoting.mark) :
    read (body ++ (quoting.delimiter ++ rest)) = some (content, rest) := by
  induction isBody with
  | nil =>
      cases manyLines : quoting.manyLines with
      | false => simpa [Quoting.delimiter, manyLines] using reads.close rest manyLines
      | true =>
          simpa [delimiter_of_manyLines manyLines] using
            reads.closeLines [] rest manyLines (by simp) fun _ => follow manyLines
  | plain isText noMark noEscape _ ih =>
      rw [List.cons_append, reads.plain _ _ isText noMark noEscape, ih]
      rfl
  | @escape character content text escape escapes escaped _ ih =>
      have lineGoesOn : endsLine (escape ++ (text ++ (quoting.delimiter ++ rest))) = false :=
        endsLine_escape escaped _
      rw [List.cons_append, List.append_assoc, reads.escape _ escapes fun _ => lineGoesOn,
        escape?_eq_some_iff.mpr ⟨escape, escaped, rfl⟩, Option.bind_some]
      simp only [ih]
      rfl
  | @mark content text manyLines few _ ih =>
      have closes := fun marks known =>
        reads.closeLines marks rest manyLines known fun _ => follow manyLines
      rw [delimiter_of_manyLines manyLines] at ih ⊢
      -- Only if nothing but marks is left may the run of marks close the string.
      match text, few with
      | [], _ =>
          obtain rfl : [] = content := by
            simpa using (closes [] (by simp)).symm.trans ih
          exact closes [quoting.mark] (by simp)
      | [first], _ =>
          by_cases isMark : first = quoting.mark
          · subst isMark
            obtain rfl : [quoting.mark] = content := by
              simpa using (closes [quoting.mark] (by simp)).symm.trans ih
            exact closes [quoting.mark, quoting.mark] (by simp)
          · rw [List.cons_append, reads.mark _ manyLines (by simp [Ne.symm isMark]), ih]
            rfl
      | first :: second :: others, few =>
          rw [List.cons_append, reads.mark _ manyLines (by simpa using few), ih]
          rfl
  | lineEnd manyLines ends _ ih =>
      rw [List.append_assoc, reads.lineEnd _ _ manyLines ends, ih]
      rfl
  | @continued content text spaces ending gap manyLines escapes blank ends passed solid _ ih =>
      rw [List.cons_append, List.append_assoc,
        reads.continued _ _ _ _ manyLines escapes blank ends passed (solid_append solid), ih]

/-- Any text is a gap and a solid text behind it. -/
theorem exists_gap (text : List Char) : ∃ gap rest, Gap gap ∧ Solid rest ∧ text = gap ++ rest := by
  induction lengthEq : text.length using Nat.strongRecOn generalizing text with
  | _ length ih =>
  by_cases lineEnds : ∃ ending, LineEnd ending ∧ ending <+: text
  · obtain ⟨ending, ends, others, rfl⟩ := lineEnds
    have shorter : others.length < length := by
      have nonempty := length_pos_of_lineEnd ends
      simp [← lengthEq, nonempty]
    obtain ⟨gap, rest, passed, solid, rfl⟩ := ih _ shorter others rfl
    exact ⟨ending ++ gap, rest, .lineEnd ends passed, solid, by simp⟩
  · by_cases blank : ∃ character others, text = character :: others ∧ IsSpace character
    · obtain ⟨character, others, rfl, blank⟩ := blank
      obtain ⟨gap, rest, passed, solid, rfl⟩ := ih _ (by simp [← lengthEq]) others rfl
      exact ⟨character :: gap, rest, .space blank passed, solid, rfl⟩
    · refine ⟨[], text, .nil, ⟨?_, fun ending ends begins => lineEnds ⟨ending, ends, begins⟩⟩, rfl⟩
      intro character headEq isBlank
      obtain ⟨others, rfl⟩ := List.head?_eq_some_iff.mp headEq
      exact blank ⟨character, others, rfl, isBlank⟩

/-- The text is a body with this content, the closing delimiter, and the rest. -/
def Holds (quoting : Quoting) (content rest text : List Char) : Prop :=
  ∃ body, Body quoting content body ∧ text = body ++ (quoting.delimiter ++ rest)

theorem Holds.plain (isText : IsText character) (noMark : character ≠ quoting.mark)
    (noEscape : quoting.escapes = true → character ≠ '\\')
    (holds : Holds quoting content rest text) :
    Holds quoting (character :: content) rest (character :: text) := by
  obtain ⟨body, isBody, rfl⟩ := holds
  exact ⟨character :: body, .plain isText noMark noEscape isBody, rfl⟩

theorem Holds.escape {escape : List Char} (escapes : quoting.escapes = true)
    (escaped : Escape character escape) (holds : Holds quoting content rest text) :
    Holds quoting (character :: content) rest ('\\' :: (escape ++ text)) := by
  obtain ⟨body, isBody, rfl⟩ := holds
  exact ⟨'\\' :: (escape ++ body), .escape escapes escaped isBody, by simp⟩

theorem Holds.mark (manyLines : quoting.manyLines = true)
    (few : ¬ [quoting.mark, quoting.mark] <+: text) (holds : Holds quoting content rest text) :
    Holds quoting (quoting.mark :: content) rest (quoting.mark :: text) := by
  obtain ⟨body, isBody, rfl⟩ := holds
  have fewInBody := fun two => few (List.IsPrefix.trans two (List.prefix_append _ _))
  exact ⟨quoting.mark :: body, .mark manyLines fewInBody isBody, rfl⟩

theorem Holds.lineEnd {ending : List Char} (manyLines : quoting.manyLines = true)
    (ends : LineEnd ending) (holds : Holds quoting content rest text) :
    Holds quoting (ending ++ content) rest (ending ++ text) := by
  obtain ⟨body, isBody, rfl⟩ := holds
  exact ⟨ending ++ body, .lineEnd manyLines ends isBody, by simp⟩

theorem Holds.continued {spaces ending gap : List Char} (manyLines : quoting.manyLines = true)
    (escapes : quoting.escapes = true) (blank : Spaces spaces) (ends : LineEnd ending)
    (passed : Gap gap) (solid : Solid text) (holds : Holds quoting content rest text) :
    Holds quoting content rest ('\\' :: (spaces ++ ending ++ gap ++ text)) := by
  obtain ⟨body, isBody, rfl⟩ := holds
  refine ⟨'\\' :: (spaces ++ ending ++ gap ++ body),
    .continued manyLines escapes blank ends passed ⟨?_, ?_⟩ isBody, by simp⟩
  · intro character headEq
    refine solid.noSpace character ?_
    rw [List.head?_append, headEq]
    rfl
  · exact fun ending ends begins =>
      solid.noLineEnd ending ends (begins.trans (List.prefix_append _ _))

theorem holds_marks (manyLines : quoting.manyLines = true) {marks : List Char}
    (known : marks ∈ [[], [quoting.mark], [quoting.mark, quoting.mark]]) :
    Holds quoting marks rest (marks ++ (quoting.mark :: quoting.mark :: quoting.mark :: rest)) := by
  have one : Body quoting [quoting.mark] [quoting.mark] := .mark manyLines (by simp) .nil
  have two : Body quoting [quoting.mark, quoting.mark] [quoting.mark, quoting.mark] :=
    .mark manyLines (by simp) one
  refine ⟨marks, ?_, by rw [delimiter_of_manyLines manyLines]; rfl⟩
  simp only [List.mem_cons, List.not_mem_nil, or_false] at known
  rcases known with rfl | rfl | rfl
  · exact .nil
  · exact one
  · exact two

/-- Three marks or more close a string of many lines, and at most two of them belong to it. -/
theorem Reads.holds_of_marks (reads : Reads quoting read) (manyLines : quoting.manyLines = true)
    (found : read (quoting.mark :: quoting.mark :: quoting.mark :: text) = some (content, rest)) :
    Holds quoting content rest (quoting.mark :: quoting.mark :: quoting.mark :: text) := by
  have closing : ∀ marks behind, marks ∈ [[], [quoting.mark], [quoting.mark, quoting.mark]] →
      (marks.length < 2 → behind.head? ≠ some quoting.mark) →
      quoting.mark :: quoting.mark :: quoting.mark :: text =
        marks ++ (quoting.mark :: quoting.mark :: quoting.mark :: behind) →
      Holds quoting content rest (quoting.mark :: quoting.mark :: quoting.mark :: text) := by
    intro marks behind known few textEq
    rw [textEq, reads.closeLines marks behind manyLines known few] at found
    cases found
    exact textEq ▸ holds_marks manyLines known
  by_cases third : text.head? = some quoting.mark
  · obtain ⟨others, rfl⟩ := List.head?_eq_some_iff.mp third
    by_cases fourth : others.head? = some quoting.mark
    · obtain ⟨behind, rfl⟩ := List.head?_eq_some_iff.mp fourth
      exact closing [quoting.mark, quoting.mark] behind (by simp) (by simp) rfl
    · exact closing [quoting.mark] others (by simp) (fun _ => fourth) rfl
  · exact closing [] text (by simp) (fun _ => third) rfl

/-- From texts of at most this length the reader takes nothing but bodies. -/
def HoldsUpTo (quoting : Quoting) (read : List Char → Reading (List Char)) (length : Nat) : Prop :=
  ∀ text content rest, text.length ≤ length → read text = some (content, rest) →
    Holds quoting content rest text

theorem Reads.holds_of_mark (reads : Reads quoting read)
    (shorter : HoldsUpTo quoting read text.length)
    (found : read (quoting.mark :: text) = some (content, rest)) :
    Holds quoting content rest (quoting.mark :: text) := by
  cases manyLines : quoting.manyLines with
  | false =>
      rw [reads.close _ manyLines] at found
      cases found
      exact ⟨[], .nil, by simp [Quoting.delimiter, manyLines]⟩
  | true =>
      by_cases two : [quoting.mark, quoting.mark] <+: text
      · obtain ⟨behind, rfl⟩ := two
        exact reads.holds_of_marks manyLines found
      · rw [reads.mark _ manyLines two, prepend_eq_some_iff] at found
        obtain ⟨inner, found, rfl⟩ := found
        exact (shorter _ _ _ (Nat.le_refl _) found).mark manyLines two

theorem Reads.holds_of_backslash (reads : Reads quoting read) (escapes : quoting.escapes = true)
    (shorter : HoldsUpTo quoting read text.length)
    (found : read ('\\' :: text) = some (content, rest)) :
    Holds quoting content rest ('\\' :: text) := by
  by_cases lineEnds : quoting.manyLines = true ∧ endsLine text = true
  · obtain ⟨manyLines, endsLine⟩ := lineEnds
    obtain ⟨spaces, ending, beyond, blank, ends, rfl⟩ := endsLine_eq_true_iff.mp endsLine
    obtain ⟨gap, behind, passed, solid, rfl⟩ := exists_gap beyond
    have textEq : spaces ++ (ending ++ (gap ++ behind)) = spaces ++ ending ++ gap ++ behind := by
      simp
    rw [textEq] at shorter found ⊢
    rw [reads.continued _ _ _ _ manyLines escapes blank ends passed solid] at found
    have bound : behind.length ≤ (spaces ++ ending ++ gap ++ behind).length := by
      rw [List.length_append]
      exact Nat.le_add_left _ _
    exact (shorter _ _ _ bound found).continued manyLines escapes blank ends passed solid
  · rw [reads.escape _ escapes (by simpa using lineEnds), Option.bind_eq_some_iff] at found
    obtain ⟨⟨meant, behind⟩, escaped, found⟩ := found
    obtain ⟨escape, isEscape, rfl⟩ := escape?_eq_some_iff.mp escaped
    obtain ⟨inner, foundInner, rfl⟩ := prepend_eq_some_iff.mp found
    have bound : behind.length ≤ (escape ++ behind).length := by
      rw [List.length_append]
      exact Nat.le_add_left _ _
    exact (shorter _ _ _ bound foundInner).escape escapes isEscape

/-- A character that is no text begins a line end, or the reader refuses it. -/
theorem Reads.holds_of_not_isText (reads : Reads quoting read) (noText : ¬ IsText character)
    (shorter : HoldsUpTo quoting read text.length)
    (found : read (character :: text) = some (content, rest)) :
    Holds quoting content rest (character :: text) := by
  by_cases lineEnds : quoting.manyLines = true ∧
      ∃ ending, LineEnd ending ∧ ending <+: character :: text
  · obtain ⟨manyLines, ending, ends, behind, textEq⟩ := lineEnds
    have bound : behind.length ≤ text.length := by
      have nonempty := length_pos_of_lineEnd ends
      have lengthEq := congrArg List.length textEq
      rw [List.length_append, List.length_cons] at lengthEq
      omega
    rw [← textEq] at found ⊢
    rw [reads.lineEnd _ _ manyLines ends, Option.map_eq_some_iff] at found
    obtain ⟨⟨inner, _⟩, found, innerEq⟩ := found
    cases innerEq
    exact (shorter _ _ _ bound found).lineEnd manyLines ends
  · have noLineEnd : quoting.manyLines = true →
        ∀ ending, LineEnd ending → ¬ ending <+: character :: text :=
      fun manyLines ending ends begins => lineEnds ⟨manyLines, ending, ends, begins⟩
    rw [reads.foreign _ _ noText noLineEnd] at found
    cases found

theorem Reads.holdsUpTo (reads : Reads quoting read) (length : Nat) :
    HoldsUpTo quoting read length := by
  induction length with
  | zero =>
      intro text content rest bound found
      obtain rfl := List.length_eq_zero_iff.mp (Nat.le_zero.mp bound)
      rw [reads.nil] at found
      cases found
  | succ length ih =>
      intro text content rest bound found
      match text with
      | [] =>
          rw [reads.nil] at found
          cases found
      | character :: others =>
          have shorter : HoldsUpTo quoting read others.length := fun text content rest bounded =>
            ih text content rest (Nat.le_trans bounded (Nat.le_of_succ_le_succ bound))
          by_cases isMark : character = quoting.mark
          · subst isMark
            exact reads.holds_of_mark shorter found
          by_cases isEscape : quoting.escapes = true ∧ character = '\\'
          · obtain ⟨escapes, rfl⟩ := isEscape
            exact reads.holds_of_backslash escapes shorter found
          by_cases isText : IsText character
          · have noEscape : quoting.escapes = true → character ≠ '\\' :=
              fun escapes isBackslash => isEscape ⟨escapes, isBackslash⟩
            rw [reads.plain _ _ isText isMark noEscape, prepend_eq_some_iff] at found
            obtain ⟨inner, found, rfl⟩ := found
            exact (shorter _ _ _ (Nat.le_refl _) found).plain isText isMark noEscape
          · exact reads.holds_of_not_isText isText shorter found

/-- The reader takes nothing but bodies of the grammar. -/
theorem Reads.holds (reads : Reads quoting read) (found : read text = some (content, rest)) :
    Holds quoting content rest text :=
  reads.holdsUpTo text.length text content rest (Nat.le_refl _) found

end CaseHarness.Settings.File
