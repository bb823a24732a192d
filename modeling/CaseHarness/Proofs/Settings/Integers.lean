import CaseHarness.Proofs.Settings.TomlGrammar
import CaseHarness.Settings.File
import Mathlib.Data.Bool.AllAny
import Mathlib.Data.List.Basic

/-!
# Integers of a settings file

The reader takes a word as a number exactly if the grammar has it spell this number: digits of
its base with underscores between them, and in decimal a sign and no needless zeros.
-/

namespace CaseHarness.Settings.File

open Text.Numeral (digitIn?)
open Toml (IsDigit Digits Decimal Sign Integer)

variable {base number digit : Nat} {character : Char} {text rest : List Char}

theorem digitIn?_of_lt (found : digitIn? 16 character = some digit) (inBase : digit < base) :
    digitIn? base character = some digit := by
  unfold digitIn? at found ⊢
  split_ifs at found ⊢ <;> simp_all

theorem digitIn?_eq_some_iff (small : base ≤ 16) :
    digitIn? base character = some digit ↔ IsDigit base digit character := by
  constructor
  · intro found
    have decimalDigits : ∀ offset < 10, Char.ofNat (48 + offset) = Nat.digitChar offset := by decide
    have smallLetters : ∀ offset < 6, Char.ofNat (97 + offset) = Nat.digitChar (offset + 10) := by
      decide
    have capitals : ∀ offset < 6,
        Char.ofNat (65 + offset) = (Nat.digitChar (offset + 10)).toUpper := by decide
    have marks : '0'.toNat = 48 ∧ '9'.toNat = 57 ∧ 'a'.toNat = 97 ∧ 'f'.toNat = 102 ∧
        'A'.toNat = 65 ∧ 'F'.toNat = 70 := by decide
    simp only [digitIn?, Char.le_def, UInt32.le_iff_toNat_le, Char.toNat_val, marks] at found
    have characterEq := Char.ofNat_toNat character
    generalize character.toNat = code at found characterEq
    -- The code of the character is that of the first one of its kind and an offset.
    split_ifs at found with decimal inBase smallLetter inBase capital inBase foreign
    · obtain ⟨offset, rfl⟩ := Nat.exists_eq_add_of_le decimal.1
      rw [Nat.add_sub_cancel_left] at found inBase
      cases found
      exact ⟨inBase, Or.inl (by rw [← characterEq, decimalDigits _ (by omega)])⟩
    · obtain ⟨offset, rfl⟩ := Nat.exists_eq_add_of_le smallLetter.1
      rw [Nat.add_sub_cancel_left] at found inBase
      cases found
      exact ⟨inBase, Or.inl (by rw [← characterEq, smallLetters _ (by omega)])⟩
    · obtain ⟨offset, rfl⟩ := Nat.exists_eq_add_of_le capital.1
      rw [Nat.add_sub_cancel_left] at found inBase
      cases found
      exact ⟨inBase, Or.inr (by rw [← characterEq, capitals _ (by omega)])⟩
    · exact absurd foreign (Nat.lt_irrefl base)
  · rintro ⟨inBase, spelled⟩
    have each : ∀ digit < 16, digitIn? 16 (Nat.digitChar digit) = some digit ∧
        digitIn? 16 (Nat.digitChar digit).toUpper = some digit := by decide
    obtain ⟨plain, capital⟩ := each digit (by omega)
    rcases spelled with rfl | rfl
    · exact digitIn?_of_lt plain inBase
    · exact digitIn?_of_lt capital inBase

theorem digitIn?_underscore (base : Nat) : digitIn? base '_' = none := by
  simp [digitIn?]

theorem groupedFrom_digit {value : Nat} (isDigit : digitIn? base character = some digit)
    (rest : List Char) :
    groupedFrom base value (character :: rest) = groupedFrom base (value * base + digit) rest := by
  have noMark : character ≠ '_' := by
    rintro rfl
    rw [digitIn?_underscore] at isDigit
    cases isDigit
  simp [groupedFrom, isDigit, noMark]

theorem groupedFrom_group {value : Nat} (isDigit : digitIn? base character = some digit)
    (rest : List Char) : groupedFrom base value ('_' :: character :: rest) =
      groupedFrom base (value * base + digit) rest := by
  simp [groupedFrom, isDigit]

/-- A number may be read in two parts, unless it is cut in front of an underscore. -/
theorem groupedFrom_append {value next : Nat} (read : groupedFrom base value text = some next)
    (rest : List Char) : groupedFrom base value (text ++ rest) = groupedFrom base next rest := by
  fun_induction groupedFrom base value text with
  | case1 =>
      cases read
      rfl
  | case2 value character others digit isDigit ih =>
      rw [List.cons_append, List.cons_append, groupedFrom_group isDigit]
      exact ih read
  | case3 => cases read
  | case4 value character others _ digit isDigit ih =>
      rw [List.cons_append, groupedFrom_digit isDigit]
      exact ih read
  | case5 => cases read

theorem grouped?_append (read : grouped? base text = some number) (rest : List Char) :
    grouped? base (text ++ rest) = groupedFrom base number rest := by
  unfold grouped? at read
  split at read
  · cases read
  · next character others =>
    split at read
    · next digit isDigit =>
      simp only [List.cons_append, grouped?, isDigit]
      exact groupedFrom_append read rest
    · cases read

theorem groupedFrom_zero (noMark : character ≠ '_') (rest : List Char) :
    groupedFrom base 0 (character :: rest) = grouped? base (character :: rest) := by
  simp [groupedFrom, grouped?, noMark]

theorem digits_of_groupedFrom (small : base ≤ 16) {value : Nat}
    (read : groupedFrom base value rest = some number) (digits : Digits base value text) :
    Digits base number (text ++ rest) := by
  fun_induction groupedFrom base value rest generalizing text with
  | case1 =>
      cases read
      simpa using digits
  | case2 value character others digit isDigit ih =>
      have longer := ih read (digits.nextGroup ((digitIn?_eq_some_iff small).mp isDigit))
      simpa using longer
  | case3 => cases read
  | case4 value character others _ digit isDigit ih =>
      have longer := ih read (digits.next ((digitIn?_eq_some_iff small).mp isDigit))
      simpa using longer
  | case5 => cases read

/-- The reader of digits follows the grammar. -/
theorem grouped?_eq_some_iff (small : base ≤ 16) :
    grouped? base text = some number ↔ Digits base number text := by
  constructor
  · intro read
    unfold grouped? at read
    split at read
    · cases read
    · next character others =>
      split at read
      · next digit isDigit =>
        exact digits_of_groupedFrom small read (.first ((digitIn?_eq_some_iff small).mp isDigit))
      · cases read
  · intro digits
    induction digits with
    | first isDigit => simp [grouped?, (digitIn?_eq_some_iff small).mpr isDigit, groupedFrom]
    | next digits isDigit ih =>
        rw [grouped?_append ih, groupedFrom_digit ((digitIn?_eq_some_iff small).mpr isDigit)]
        rfl
    | nextGroup digits isDigit ih =>
        rw [grouped?_append ih, groupedFrom_group ((digitIn?_eq_some_iff small).mpr isDigit)]
        rfl

theorem decimal?_eq_some_iff : decimal? text = some number ↔ Decimal number text := by
  have zero : IsDigit 10 0 '0' := ⟨by decide, Or.inl rfl⟩
  constructor
  · intro read
    unfold decimal? at read
    split at read
    · cases read
      exact ⟨.first zero, fun _ => rfl⟩
    · cases read
    · next _ noZero =>
      refine ⟨(grouped?_eq_some_iff (by decide)).mp read, fun headEq => ?_⟩
      obtain ⟨others, rfl⟩ := List.head?_eq_some_iff.mp headEq
      exact absurd rfl (noZero others)
  · rintro ⟨digits, noZero⟩
    have read := (grouped?_eq_some_iff (by decide)).mpr digits
    unfold decimal?
    split
    · rw [← read]
      decide
    · next tail notAlone =>
      have alone := noZero rfl
      simp only [List.cons.injEq, true_and] at alone
      exact absurd alone notAlone
    · exact read

theorem exists_first_digit (digits : Digits base number text) :
    ∃ digit first others, text = first :: others ∧ IsDigit base digit first := by
  induction digits with
  | @first digit character isDigit => exact ⟨digit, character, [], rfl, isDigit⟩
  | next _ _ ih =>
      obtain ⟨digit, first, others, rfl, isFirst⟩ := ih
      exact ⟨digit, first, others ++ [_], rfl, isFirst⟩
  | nextGroup _ _ ih =>
      obtain ⟨digit, first, others, rfl, isFirst⟩ := ih
      exact ⟨digit, first, others ++ [_, _], rfl, isFirst⟩

theorem isDigit_of_mem (digits : Digits base number text) (member : character ∈ text) :
    character = '_' ∨ ∃ digit, IsDigit base digit character := by
  induction digits with
  | first isDigit => exact Or.inr ⟨_, List.mem_singleton.mp member ▸ isDigit⟩
  | next _ isDigit ih =>
      rcases List.mem_append.mp member with earlier | isLast
      · exact ih earlier
      · exact Or.inr ⟨_, List.mem_singleton.mp isLast ▸ isDigit⟩
  | nextGroup _ isDigit ih =>
      rcases List.mem_append.mp member with earlier | later
      · exact ih earlier
      · rcases List.mem_cons.mp later with mark | isLast
        · exact Or.inl mark
        · exact Or.inr ⟨_, List.mem_singleton.mp isLast ▸ isDigit⟩

/-- Without a sign or the mark of a base in front, a number is read as decimal. -/
theorem integer?_of_decimal (decimal : Decimal number text) :
    integer? text = some (number : Int) := by
  have read := decimal?_eq_some_iff.mpr decimal
  obtain ⟨digit, first, others, rfl, small, spelled⟩ := exists_first_digit decimal.digits
  have noSign : ∀ digit < 10, (Nat.digitChar digit ≠ '+' ∧ Nat.digitChar digit ≠ '-') ∧
      (Nat.digitChar digit).toUpper ≠ '+' ∧ (Nat.digitChar digit).toUpper ≠ '-' := by decide
  have unsigned : first ≠ '+' ∧ first ≠ '-' := by
    rcases spelled with rfl | rfl
    · exact (noSign digit small).1
    · exact (noSign digit small).2
  have unmarked : ∀ mark digits, first :: others ≠ '0' :: mark :: digits := by
    intro mark digits textEq
    have alone := decimal.noZero (by simp [textEq])
    simp_all
  unfold integer?
  split
  · next digits textEq => exact absurd textEq (unmarked 'x' digits)
  · next digits textEq => exact absurd textEq (unmarked 'o' digits)
  · next digits textEq => exact absurd textEq (unmarked 'b' digits)
  · next digits textEq => exact absurd (List.cons.inj textEq).1 unsigned.1
  · next digits textEq => exact absurd (List.cons.inj textEq).1 unsigned.2
  · rw [read]
    rfl

theorem integer?_eq_some_iff {number : Int} :
    integer? text = some number ↔ Integer number text := by
  constructor
  · intro read
    unfold integer? at read
    split at read
    all_goals
      simp only [Option.map_eq_some_iff] at read
      obtain ⟨value, read, rfl⟩ := read
    · exact .hexadecimal ((grouped?_eq_some_iff (by decide)).mp read)
    · exact .octal ((grouped?_eq_some_iff (by decide)).mp read)
    · exact .binary ((grouped?_eq_some_iff (by decide)).mp read)
    · simpa using Integer.decimal .plus (decimal?_eq_some_iff.mp read)
    · simpa using Integer.decimal .minus (decimal?_eq_some_iff.mp read)
    · simpa using Integer.decimal .none (decimal?_eq_some_iff.mp read)
  · intro integer
    cases integer with
    | decimal signed decimal =>
        have read := decimal?_eq_some_iff.mpr decimal
        cases signed with
        | none => simp [integer?_of_decimal decimal]
        | plus => simp [integer?, read]
        | minus => simp [integer?, read]
    | hexadecimal digits => simp [integer?, (grouped?_eq_some_iff (by decide)).mpr digits]
    | octal digits => simp [integer?, (grouped?_eq_some_iff (by decide)).mpr digits]
    | binary digits => simp [integer?, (grouped?_eq_some_iff (by decide)).mpr digits]

/-- A character that may stand behind the first one of an integer. -/
def IsIntegral (character : Char) : Prop :=
  character = '_' ∨ character = 'x' ∨ character = 'o' ∨ ∃ digit, IsDigit 16 digit character

theorem isIntegral_of_isDigit (small : base ≤ 16) (isDigit : IsDigit base digit character) :
    IsIntegral character :=
  Or.inr (Or.inr (Or.inr ⟨digit, Nat.lt_of_lt_of_le isDigit.1 small, isDigit.2⟩))

theorem isIntegral_of_digits (small : base ≤ 16) (digits : Digits base number text)
    (member : character ∈ text) : IsIntegral character := by
  rcases isDigit_of_mem digits member with mark | ⟨digit, isDigit⟩
  · exact Or.inl mark
  · exact isIntegral_of_isDigit small isDigit

/-- An integer is a decimal number with a sign, or digits behind the mark of their base. -/
theorem signed_or_based {whole : Int} (integer : Integer whole text) :
    (∃ factor number sign digits, Sign factor sign ∧ Decimal number digits ∧
      text = sign ++ digits) ∨
      ∃ base number mark digits, base ≤ 16 ∧ mark ∈ ['x', 'o', 'b'] ∧ Digits base number digits ∧
        text = '0' :: mark :: digits := by
  cases integer with
  | decimal signed decimal => exact Or.inl ⟨_, _, _, _, signed, decimal, rfl⟩
  | hexadecimal digits => exact Or.inr ⟨16, _, 'x', _, by decide, by simp, digits, rfl⟩
  | octal digits => exact Or.inr ⟨8, _, 'o', _, by decide, by simp, digits, rfl⟩
  | binary digits => exact Or.inr ⟨2, _, 'b', _, by decide, by simp, digits, rfl⟩

/-- Only the first character of an integer may be a sign. -/
theorem isIntegral_of_integer {whole : Int} {first : Char} {others : List Char}
    (integer : Integer whole (first :: others)) (member : character ∈ others) :
    IsIntegral character := by
  rcases signed_or_based integer with
    ⟨_, _, sign, digits, signed, decimal, textEq⟩ |
      ⟨_, _, mark, digits, small, isMark, based, textEq⟩
  · refine isIntegral_of_digits (by decide) decimal.digits ?_
    cases signed with
    | none =>
        rw [List.nil_append] at textEq
        exact textEq ▸ List.mem_cons_of_mem first member
    | plus =>
        cases textEq
        exact member
    | minus =>
        cases textEq
        exact member
  · cases textEq
    rcases List.mem_cons.mp member with rfl | later
    · simp only [List.mem_cons, List.not_mem_nil, or_false] at isMark
      rcases isMark with rfl | rfl | rfl
      · exact Or.inr (Or.inl rfl)
      · exact Or.inr (Or.inr (Or.inl rfl))
      · exact Or.inr (Or.inr (Or.inr ⟨11, by decide, Or.inl rfl⟩))
    · exact isIntegral_of_digits small based later

/-- A decimal number in front of a fraction or an exponent does not make an integer with it. -/
theorem not_integer_of_mark {whole factor : Int} {sign rest : List Char} {mark : Char}
    (signed : Sign factor sign) (decimal : Decimal number text) (isMark : mark ∈ ['.', 'e', 'E']) :
    ¬ Integer whole (sign ++ (text ++ mark :: rest)) := by
  intro integer
  have noDigit : ∀ mark ∈ ['.', 'e', 'E'], mark ∉ ['+', '-', '_', 'x', 'o', 'b'] ∧
      ∀ digit < 10, mark ≠ Nat.digitChar digit ∧ mark ≠ (Nat.digitChar digit).toUpper :=
    List.all_iff_forall_prop.mp (by decide)
  obtain ⟨notSpecial, notDigit⟩ := noDigit mark isMark
  simp only [List.mem_cons, List.not_mem_nil, or_false, not_or] at notSpecial
  rcases signed_or_based integer with
    ⟨_, _, wholeSign, digits, wholeSigned, wholeDecimal, textEq⟩ |
      ⟨_, _, base, digits, -, isBase, -, textEq⟩
  · have member : mark ∈ wholeSign ++ digits := by simp [← textEq]
    rcases List.mem_append.mp member with inSign | inText
    · cases wholeSigned <;> simp_all
    · rcases isDigit_of_mem wholeDecimal.digits inText with underscore | ⟨digit, small, spelled⟩
      · exact notSpecial.2.2.1 underscore
      · exact spelled.elim (notDigit digit small).1 (notDigit digit small).2
  · -- Behind a zero the mark stands at once, so it would be the mark of a base.
    have isMark : base = mark := by
      obtain ⟨digit, first, others, rfl, -⟩ := exists_first_digit decimal.digits
      cases signed with
      | none =>
          obtain ⟨rfl, othersEq⟩ := List.cons.inj textEq
          obtain ⟨-, rfl⟩ := List.cons.inj (decimal.noZero rfl)
          exact (List.cons.inj othersEq).1.symm
      | plus => exact absurd (List.cons.inj textEq).1 (by decide)
      | minus => exact absurd (List.cons.inj textEq).1 (by decide)
    simp only [List.mem_cons, List.not_mem_nil, or_false, isMark] at isBase
    exact isBase.elim notSpecial.2.2.2.1 fun isBase =>
      isBase.elim notSpecial.2.2.2.2.1 notSpecial.2.2.2.2.2

end CaseHarness.Settings.File
