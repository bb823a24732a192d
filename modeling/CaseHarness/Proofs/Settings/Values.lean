import CaseHarness.Proofs.Settings.StringReaders

/-!
# Values of a settings file

The reader takes the strings and the integers of the grammar.  Every other value begins as no
integer begins, so the reader refuses it without looking for its end.
-/

namespace CaseHarness.Settings.File

open Toml (IsDigit Digits FixedDigits Decimal Sign Integer FloatingPoint Date HourMinute Time
  Moment Quoting Body Quoted LineEnd Spells)

variable {quoting : Quoting} {content text rest front : List Char} {character : Char}

/-- The text begins with a character that ends a word, or it is over. -/
def Closes (text : List Char) : Prop :=
  ∀ character, text.head? = some character → endsWord character = true

theorem Closes.head?_ne (closes : Closes rest) (goesOn : endsWord character = false) :
    rest.head? ≠ some character := by
  intro headEq
  rw [closes character headEq] at goesOn
  cases goesOn

/-- The text begins with a character that is no blank, comment or line end. -/
def BeginsWord (text : List Char) : Prop :=
  ∃ first others, text = first :: others ∧ endsWord first = false

theorem BeginsWord.append (begins : BeginsWord text) (rest : List Char) :
    BeginsWord (text ++ rest) := by
  obtain ⟨first, others, rfl, goesOn⟩ := begins
  exact ⟨first, others ++ rest, rfl, goesOn⟩

theorem not_isSpace_of_goesOn (goesOn : endsWord character = false) :
    isSpace character = false := by
  unfold endsWord at goesOn
  simp_all

theorem takeWhile_stops {goesOn : Char → Bool}
    (stops : ∀ character, rest.head? = some character → goesOn character = false) :
    rest.takeWhile goesOn = [] ∧ rest.dropWhile goesOn = rest := by
  cases rest with
  | nil => exact ⟨rfl, rfl⟩
  | cons first others => simp [stops first rfl]

theorem BeginsWord.dropWhile_isSpace (begins : BeginsWord text) :
    text.dropWhile isSpace = text := by
  obtain ⟨first, others, rfl, goesOn⟩ := begins
  refine (takeWhile_stops fun character headEq => ?_).2
  cases headEq
  exact not_isSpace_of_goesOn goesOn

theorem endsWord_mark (quoting : Quoting) : endsWord quoting.mark = false := by
  rcases mark_cases quoting with markEq | markEq <;> rw [markEq] <;> decide

/-! ## Strings -/

theorem value_of_manyLines (manyLines : quoting.manyLines = true) (text : List Char) :
    value (quoting.delimiter ++ text) = asText (reader quoting (dropLineEnd text)) := by
  match quoting, manyLines with
  | ⟨true, true⟩, _ => rfl
  | ⟨false, true⟩, _ => rfl

theorem value_of_oneLine (oneLine : quoting.manyLines = false)
    (few : ¬ [quoting.mark, quoting.mark] <+: text) :
    value (quoting.delimiter ++ text) = asText (reader quoting text) := by
  match quoting, oneLine with
  | ⟨true, false⟩, _ =>
      change value ('"' :: text) = asText (basic text)
      rw [value]
      rintro rest rfl
      exact few ⟨rest, rfl⟩
  | ⟨false, false⟩, _ =>
      change value ('\x27' :: text) = asText (literal text)
      rw [value]
      rintro rest rfl
      exact few ⟨rest, rfl⟩

theorem dropLineEnd_lineEnd {ending : List Char} (ends : LineEnd ending) (text : List Char) :
    dropLineEnd (ending ++ text) = text := by
  cases ends <;> rfl

theorem dropLineEnd_of_noLineEnd (noLineEnd : ∀ ending, LineEnd ending → ¬ ending <+: text) :
    dropLineEnd text = text := by
  unfold dropLineEnd
  split
  · next rest => exact absurd ⟨rest, rfl⟩ (noLineEnd _ .newline)
  · next rest => exact absurd ⟨rest, rfl⟩ (noLineEnd _ .carriage)
  · rfl

/-- A string on one line does not begin with a mark. -/
theorem not_two_marks {body : List Char} (oneLine : quoting.manyLines = false)
    (isBody : Body quoting content body) (follow : rest.head? ≠ some quoting.mark) :
    ¬ [quoting.mark, quoting.mark] <+: body ++ (quoting.delimiter ++ rest) := by
  have delimiterEq : quoting.delimiter = [quoting.mark] := if_neg (by simp [oneLine])
  have noBackslash : quoting.mark ≠ '\\' := by
    rcases mark_cases quoting with markEq | markEq <;> rw [markEq] <;> decide
  rw [delimiterEq]
  cases isBody with
  | nil =>
      rintro ⟨behind, textEq⟩
      exact follow (List.head?_eq_some_iff.mpr ⟨behind, by simpa using textEq.symm⟩)
  | plain _ noMark _ _ => simp [noMark.symm]
  | escape _ _ _ => simp [noBackslash]
  | mark manyLines => simp [oneLine] at manyLines
  | lineEnd manyLines => simp [oneLine] at manyLines
  | continued manyLines => simp [oneLine] at manyLines

theorem value_of_quoted (quoted : Quoted quoting content text) (closes : Closes rest) :
    value (text ++ rest) = some (.text (String.ofList content), rest) := by
  have follow : rest.head? ≠ some quoting.mark := closes.head?_ne (endsWord_mark quoting)
  cases quoted with
  | @plain body isBody noLineEnd =>
      have read := (reads_reader quoting).read_body isBody fun _ => follow
      rw [List.append_assoc, List.append_assoc]
      cases manyLines : quoting.manyLines with
      | true =>
          rw [value_of_manyLines manyLines,
            dropLineEnd_of_noLineEnd (noLineEnd_append (noLineEnd manyLines)), read]
          rfl
      | false =>
          rw [value_of_oneLine manyLines (not_two_marks manyLines isBody follow), read]
          rfl
  | @below body ending manyLines ends isBody =>
      have read := (reads_reader quoting).read_body isBody fun _ => follow
      rw [List.append_assoc, List.append_assoc, List.append_assoc, value_of_manyLines manyLines,
        dropLineEnd_lineEnd ends, read]
      rfl

theorem dropLineEnd_cases (text : List Char) :
    dropLineEnd text = text ∧ (∀ ending, LineEnd ending → ¬ ending <+: text) ∨
      ∃ ending, LineEnd ending ∧ text = ending ++ dropLineEnd text := by
  by_cases lineEnds : ∃ ending, LineEnd ending ∧ ending <+: text
  · obtain ⟨ending, ends, others, rfl⟩ := lineEnds
    exact Or.inr ⟨ending, ends, by rw [dropLineEnd_lineEnd ends]⟩
  · have noLineEnd : ∀ ending, LineEnd ending → ¬ ending <+: text :=
      fun ending ends begins => lineEnds ⟨ending, ends, begins⟩
    exact Or.inl ⟨dropLineEnd_of_noLineEnd noLineEnd, noLineEnd⟩

theorem quoted_of_oneLine (quoting : Quoting) (oneLine : quoting.manyLines = false)
    (read : reader quoting text = some (content, rest)) :
    ∃ spelled, Quoted quoting content spelled ∧ quoting.delimiter ++ text = spelled ++ rest := by
  obtain ⟨body, isBody, rfl⟩ := (reads_reader quoting).holds read
  exact ⟨_, .plain isBody (by simp [oneLine]), by simp⟩

theorem quoted_of_manyLines (quoting : Quoting) (manyLines : quoting.manyLines = true)
    (read : reader quoting (dropLineEnd text) = some (content, rest)) :
    ∃ spelled, Quoted quoting content spelled ∧ quoting.delimiter ++ text = spelled ++ rest := by
  obtain ⟨body, isBody, bodyEq⟩ := (reads_reader quoting).holds read
  rcases dropLineEnd_cases text with ⟨same, noLineEnd⟩ | ⟨ending, ends, textEq⟩
  · obtain rfl := same.symm.trans bodyEq
    refine ⟨_, .plain isBody fun _ ending ends begins => ?_, by simp⟩
    exact noLineEnd ending ends (begins.trans (List.prefix_append _ _))
  · rw [bodyEq] at textEq
    exact ⟨_, .below manyLines ends isBody, by simp [textEq]⟩

/-! ## Words -/

/-- A character of a value without quotes. -/
def InWord (character : Char) : Prop :=
  endsWord character = false ∧ character ≠ '"' ∧ character ≠ '\x27'

instance (character : Char) : Decidable (InWord character) :=
  inferInstanceAs (Decidable (_ ∧ _))

theorem inWord_of_sign {factor : Int} {sign : List Char} (signed : Sign factor sign) :
    ∀ character ∈ sign, InWord character := by
  cases signed <;> exact List.all_iff_forall_prop.mp (by decide)

theorem inWord_of_digits {base number : Nat} (small : base ≤ 16)
    (digits : Digits base number text) : ∀ character ∈ text, InWord character := by
  have spelled : ∀ digit < 16, InWord (Nat.digitChar digit) ∧
      InWord (Nat.digitChar digit).toUpper := by decide
  intro character member
  rcases isDigit_of_mem digits member with rfl | ⟨digit, inBase, rfl | rfl⟩
  · decide
  · exact (spelled digit (Nat.lt_of_lt_of_le inBase small)).1
  · exact (spelled digit (Nat.lt_of_lt_of_le inBase small)).2

theorem inWord_of_integer {number : Int} (integer : Integer number text) :
    ∀ character ∈ text, InWord character := by
  intro character member
  rcases signed_or_based integer with
    ⟨_, _, sign, digits, signed, decimal, rfl⟩ | ⟨_, _, mark, digits, small, isMark, based, rfl⟩
  · rcases List.mem_append.mp member with inSign | inDigits
    · exact inWord_of_sign signed character inSign
    · exact inWord_of_digits (by decide) decimal.digits character inDigits
  · have marks : ∀ mark ∈ ['x', 'o', 'b'], InWord mark := List.all_iff_forall_prop.mp (by decide)
    rcases List.mem_cons.mp member with rfl | member
    · decide
    · rcases List.mem_cons.mp member with rfl | inDigits
      · exact marks character isMark
      · exact inWord_of_digits small based character inDigits

/-- A value without quotes is read up to the end of its word. -/
theorem value_of_word (nonempty : front ≠ []) (word : ∀ character ∈ front, InWord character)
    (rest : List Char) :
    value (front ++ rest) =
      (integer? (front ++ rest.takeWhile fun character => !endsWord character)).map fun number =>
        (.integer number, rest.dropWhile fun character => !endsWord character) := by
  obtain ⟨first, others, rfl⟩ := List.exists_cons_of_ne_nil nonempty
  have goesOn : ∀ character ∈ first :: others, (!endsWord character) = true :=
    fun character member => by simp [(word character member).1]
  obtain ⟨-, noQuote, noApostrophe⟩ := word first List.mem_cons_self
  rw [← List.takeWhile_append_of_pos goesOn, ← List.dropWhile_append_of_pos goesOn]
  rw [List.cons_append, value]
  all_goals
    intros
    simp_all

theorem ne_nil_of_integer {number : Int} (integer : Integer number text) : text ≠ [] := by
  rintro rfl
  have read := integer?_eq_some_iff.mpr integer
  cases read

theorem value_of_integer {number : Int} (integer : Integer number text) (closes : Closes rest) :
    value (text ++ rest) = some (.integer number, rest) := by
  have stops : ∀ character, rest.head? = some character → (!endsWord character) = false :=
    fun character headEq => by rw [closes character headEq, Bool.not_true]
  rw [value_of_word (ne_nil_of_integer integer) (inWord_of_integer integer),
    (takeWhile_stops stops).1, (takeWhile_stops stops).2, List.append_nil,
    integer?_eq_some_iff.mpr integer]
  rfl

/-! ## Values of other kinds -/

/-- A word may begin so, but no integer begins so. -/
structure Refused (front : List Char) : Prop where
  nonempty : front ≠ []
  word : ∀ character ∈ front, InWord character
  noInteger : ∀ number back, ¬ Integer number (front ++ back)

theorem Refused.value_eq_none (refused : Refused front) (rest : List Char) :
    value (front ++ rest) = none := by
  rw [value_of_word refused.nonempty refused.word, Option.map_eq_none_iff,
    Option.eq_none_iff_forall_ne_some]
  exact fun number read => refused.noInteger number _ (integer?_eq_some_iff.mp read)

/-- The text begins with a word that is refused. -/
def BeginsRefused (text : List Char) : Prop :=
  ∃ front back, Refused front ∧ text = front ++ back

theorem BeginsRefused.append (begins : BeginsRefused text) (rest : List Char) :
    BeginsRefused (text ++ rest) := by
  obtain ⟨front, back, refused, rfl⟩ := begins
  exact ⟨front, back ++ rest, refused, List.append_assoc front back rest⟩

theorem BeginsRefused.value_eq_none (begins : BeginsRefused text) : value text = none := by
  obtain ⟨front, back, refused, rfl⟩ := begins
  exact refused.value_eq_none back

theorem not_isIntegral (foreign : character ∈ ['-', ':', 'n', 'r', 'l']) :
    ¬ IsIntegral character := by
  have noDigit : ∀ character ∈ ['-', ':', 'n', 'r', 'l'], ∀ digit < 16,
      character ≠ Nat.digitChar digit ∧ character ≠ (Nat.digitChar digit).toUpper :=
    List.all_iff_forall_prop.mp (by decide)
  have noMark : ∀ character ∈ ['-', ':', 'n', 'r', 'l'],
      character ≠ '_' ∧ character ≠ 'x' ∧ character ≠ 'o' := List.all_iff_forall_prop.mp (by decide)
  obtain ⟨noUnderscore, noHexadecimal, noOctal⟩ := noMark character foreign
  rintro (isMark | isMark | isMark | ⟨digit, small, spelled⟩)
  · exact noUnderscore isMark
  · exact noHexadecimal isMark
  · exact noOctal isMark
  · exact spelled.elim (noDigit character foreign digit small).1
      (noDigit character foreign digit small).2

/-- A word is refused for any character behind the first one that no integer has there. -/
theorem refused_of_foreign (character : Char) {first : Char} {others : List Char}
    (word : ∀ character ∈ first :: others, InWord character) (member : character ∈ others)
    (foreign : character ∈ ['-', ':', 'n', 'r', 'l']) : Refused (first :: others) where
  nonempty := List.cons_ne_nil _ _
  word := word
  noInteger _ back integer :=
    not_isIntegral foreign (isIntegral_of_integer integer (List.mem_append_left back member))

/-- A point or an exponent behind a decimal number. -/
theorem beginsRefused_of_mark {factor : Int} {number : Nat} {sign : List Char} {mark : Char}
    (signed : Sign factor sign) (decimal : Decimal number text) (isMark : mark ∈ ['.', 'e', 'E'])
    (rest : List Char) : BeginsRefused (sign ++ (text ++ mark :: rest)) := by
  refine ⟨sign ++ (text ++ [mark]), rest, ⟨by simp, fun character member => ?_, ?_⟩, by simp⟩
  · simp only [List.mem_append] at member
    rcases member with inSign | inDigits | isLast
    · exact inWord_of_sign signed character inSign
    · exact inWord_of_digits (by decide) decimal.digits character inDigits
    · have marks : ∀ mark ∈ ['.', 'e', 'E'], InWord mark :=
        List.all_iff_forall_prop.mp (by decide)
      exact List.mem_singleton.mp isLast ▸ marks mark isMark
  · intro whole back integer
    rw [List.append_assoc, List.append_assoc, List.singleton_append] at integer
    exact not_integer_of_mark signed decimal isMark integer

theorem beginsRefused_of_float (floating : FloatingPoint text) : BeginsRefused text := by
  cases floating with
  | fraction signed decimal fractional =>
      cases fractional with
      | mk digits => exact beginsRefused_of_mark signed decimal (by simp) _
  | exponent signed decimal scaled =>
      cases scaled with
      | mk isLetter _ _ =>
          exact beginsRefused_of_mark signed decimal (by rcases isLetter with rfl | rfl <;> simp) _
  | both signed decimal fractional _ =>
      cases fractional with
      | mk digits => exact beginsRefused_of_mark signed decimal (by simp) _
  | special signed known =>
      simp only [List.mem_cons, List.not_mem_nil, or_false] at known
      refine ⟨_, [], ?_, (List.append_nil _).symm⟩
      rcases known with rfl | rfl <;> cases signed <;>
        exact refused_of_foreign 'n' (List.all_iff_forall_prop.mp (by decide)) (by decide)
          (by decide)

/-- A mark of a date or of a time behind the first digits. -/
theorem beginsRefused_of_part {width number : Nat} {mark : Char}
    (part : FixedDigits 10 width number text) (isMark : mark = '-' ∨ mark = ':')
    (rest : List Char) : BeginsRefused (text ++ mark :: rest) := by
  have word := inWord_of_digits (by decide) part.digits
  obtain ⟨_, first, others, rfl, _⟩ := exists_first_digit part.digits
  refine ⟨first :: (others ++ [mark]), rest,
    refused_of_foreign mark ?_ (by simp) (by rcases isMark with rfl | rfl <;> simp), by simp⟩
  intro character member
  rw [← List.cons_append, List.mem_append] at member
  rcases member with inDigits | isLast
  · exact word character inDigits
  · obtain rfl := List.mem_singleton.mp isLast
    rcases isMark with rfl | rfl <;> decide

theorem beginsRefused_of_date (dated : Date text) : BeginsRefused text := by
  cases dated with
  | mk yearly _ _ _ _ => exact beginsRefused_of_part yearly (Or.inl rfl) _

theorem beginsRefused_of_time (timed : Time text) : BeginsRefused text := by
  have begun : ∀ text, HourMinute text → BeginsRefused text := by
    rintro _ ⟨hourly, _, _, _⟩
    exact beginsRefused_of_part hourly (Or.inr rfl) _
  cases timed with
  | short hourMinute => exact begun _ hourMinute
  | long hourMinute _ => exact (begun _ hourMinute).append _

theorem beginsRefused_of_moment (momentary : Moment text) : BeginsRefused text := by
  cases momentary with
  | date dated => exact beginsRefused_of_date dated
  | time timed => exact beginsRefused_of_time timed
  | both dated _ _ _ => exact (beginsRefused_of_date dated).append _

/-- A bracket or a brace, which no integer begins with. -/
theorem beginsRefused_of_bracket (isBracket : character = '[' ∨ character = '\x7b')
    (rest : List Char) : BeginsRefused (character :: rest) := by
  refine ⟨[character], rest, ⟨by simp, ?_, fun number back integer => ?_⟩, rfl⟩
  · rcases isBracket with rfl | rfl <;> exact List.all_iff_forall_prop.mp (by decide)
  · have read := integer?_eq_some_iff.mpr integer
    rcases isBracket with rfl | rfl <;> cases read

/-- What a setting may be of what TOML has. -/
def plain? : Toml.Value → Option Value
  | .text content => some (.text content)
  | .integer number => some (.integer number)
  | _ => none

/-- The value of a setting as a value of TOML. -/
def Value.written : Value → Toml.Value
  | .text content => .text content
  | .integer number => .integer number

theorem plain?_eq_some_iff {written : Toml.Value} {value : Value} :
    plain? written = some value ↔ written = value.written := by
  cases written <;> cases value <;> simp [plain?, Value.written]

/-- What the reader looks for in a value: quotes, an integer, or a word that it refuses. -/
theorem kind_of_spells {written : Toml.Value} (spelled : Spells written text) :
    (∃ quoting content, written = .text (String.ofList content) ∧ Quoted quoting content text) ∨
      (∃ number, written = .integer number ∧ Integer number text) ∨
      plain? written = none ∧ BeginsRefused text := by
  cases spelled with
  | text quoted => exact Or.inl ⟨_, _, rfl, quoted⟩
  | integer integral => exact Or.inr (Or.inl ⟨_, rfl, integral⟩)
  | float floating => exact Or.inr (Or.inr ⟨rfl, beginsRefused_of_float floating⟩)
  | yes =>
      have refused : Refused "true".toList :=
        refused_of_foreign 'r' (List.all_iff_forall_prop.mp (by decide)) (by decide) (by decide)
      exact Or.inr (Or.inr ⟨rfl, _, [], refused, (List.append_nil _).symm⟩)
  | no =>
      have refused : Refused "false".toList :=
        refused_of_foreign 'l' (List.all_iff_forall_prop.mp (by decide)) (by decide) (by decide)
      exact Or.inr (Or.inr ⟨rfl, _, [], refused, (List.append_nil _).symm⟩)
  | moment momentary => exact Or.inr (Or.inr ⟨rfl, beginsRefused_of_moment momentary⟩)
  | array _ => exact Or.inr (Or.inr ⟨rfl, beginsRefused_of_bracket (Or.inl rfl) _⟩)
  | table _ => exact Or.inr (Or.inr ⟨rfl, beginsRefused_of_bracket (Or.inr rfl) _⟩)

/-- The reader takes a value that the grammar spells, or refuses it if it is no setting. -/
theorem value_of_spells {written : Toml.Value} (spelled : Spells written text)
    (closes : Closes rest) : value (text ++ rest) = (plain? written).map (·, rest) := by
  rcases kind_of_spells spelled with ⟨_, _, rfl, quoted⟩ | ⟨_, rfl, integer⟩ | ⟨noSetting, begins⟩
  · exact value_of_quoted quoted closes
  · exact value_of_integer integer closes
  · rw [noSetting, (begins.append rest).value_eq_none]
    rfl

theorem beginsWord_of_quoted (quoted : Quoted quoting content text) : BeginsWord text := by
  obtain ⟨more, delimiterEq⟩ := exists_delimiter quoting
  have delimited : BeginsWord quoting.delimiter := ⟨_, more, delimiterEq, endsWord_mark quoting⟩
  cases quoted with
  | plain _ _ => exact delimited.append _
  | below _ _ _ => exact delimited.append _

theorem beginsWord_of_word (nonempty : text ≠ []) (word : ∀ character ∈ text, InWord character) :
    BeginsWord text := by
  obtain ⟨first, others, rfl⟩ := List.exists_cons_of_ne_nil nonempty
  exact ⟨first, others, rfl, (word first List.mem_cons_self).1⟩

theorem beginsWord_of_spells {written : Toml.Value} (spelled : Spells written text) :
    BeginsWord text := by
  rcases kind_of_spells spelled with ⟨_, _, -, quoted⟩ | ⟨_, -, integer⟩ | ⟨-, begins⟩
  · exact beginsWord_of_quoted quoted
  · exact beginsWord_of_word (ne_nil_of_integer integer) (inWord_of_integer integer)
  · obtain ⟨front, back, refused, rfl⟩ := begins
    exact (beginsWord_of_word refused.nonempty refused.word).append back

/-- The reader takes nothing but values that the grammar spells. -/
theorem spells_of_value {plain : Value} (read : value text = some (plain, rest)) :
    ∃ spelled, Spells plain.written spelled ∧ text = spelled ++ rest := by
  have ofString : ∀ {quoting content}, plain = .text (String.ofList content) →
      (∃ spelled, Quoted quoting content spelled ∧ text = spelled ++ rest) →
      ∃ spelled, Spells plain.written spelled ∧ text = spelled ++ rest := by
    rintro quoting content rfl ⟨spelled, quoted, textEq⟩
    exact ⟨spelled, .text quoted, textEq⟩
  unfold value at read
  split at read
  case h_5 =>
    obtain ⟨number, isNumber, readEq⟩ := Option.map_eq_some_iff.mp read
    cases readEq
    exact ⟨_, .integer (integer?_eq_some_iff.mp isNumber), List.takeWhile_append_dropWhile.symm⟩
  all_goals
    obtain ⟨⟨content, _⟩, isContent, readEq⟩ := Option.map_eq_some_iff.mp read
    cases readEq
  · exact ofString rfl (quoted_of_manyLines ⟨true, true⟩ rfl isContent)
  · exact ofString rfl (quoted_of_oneLine ⟨true, false⟩ rfl isContent)
  · exact ofString rfl (quoted_of_manyLines ⟨false, true⟩ rfl isContent)
  · exact ofString rfl (quoted_of_oneLine ⟨false, false⟩ rfl isContent)

end CaseHarness.Settings.File
