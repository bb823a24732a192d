import CaseHarness.Text.Blank
import CaseHarness.Text.Numeral
import Mathlib.Data.List.Induction
import Mathlib.Data.Nat.Digits.Defs

/-!
# Numbers that are read back

The readers of numbers agree with the library on what a list of decimal digits is worth, so
the decimal text of a number is read as that number.  An unsigned number may have a plus sign
and leading zeros in front of it, a signed one also a minus sign, and nothing else is read as
one.
-/

namespace CaseHarness.Text.Numeral

variable {characters : List Char} {value number : Nat}

theorem digitValue?_of_isDigit {character : Char} (digit : character.isDigit = true) :
    digitValue? character = some (character.toNat - '0'.toNat) := by
  have bounds : '0' ≤ character ∧ character ≤ '9' := by
    simpa [Char.isDigit, Char.le_def, UInt32.le_iff_toNat_le] using digit
  rw [digitValue?, if_pos bounds]

theorem digitValue?_eq_some {character : Char} (found : digitValue? character = some number) :
    character.isDigit = true ∧ number = character.toNat - '0'.toNat := by
  unfold digitValue? at found
  split at found
  · next bounds =>
    cases found
    have digit : '0' ≤ character ∧ character ≤ '9' := bounds
    simpa [Char.isDigit, Char.le_def, UInt32.le_iff_toNat_le] using digit
  · cases found

theorem digitsFrom_eq_ofDigitChars (digits : ∀ character ∈ characters, character.isDigit = true)
    (value : Nat) : digitsFrom value characters = some (Nat.ofDigitChars 10 characters value) := by
  induction characters generalizing value with
  | nil => rfl
  | cons character characters ih =>
      have first := digits character List.mem_cons_self
      have others : ∀ other ∈ characters, other.isDigit = true := fun other mem =>
        digits other (List.mem_cons_of_mem _ mem)
      rw [digitsFrom, digitValue?_of_isDigit first, Nat.ofDigitChars_cons, Nat.mul_comm 10]
      exact ih others _

/-- More digits never make a number smaller. -/
theorem le_ofDigitChars (value : Nat) (characters : List Char) :
    value ≤ Nat.ofDigitChars 10 characters value := by
  induction characters generalizing value with
  | nil => exact Nat.le_refl value
  | cons character characters ih =>
      rw [Nat.ofDigitChars_cons]
      have further := ih (10 * value + (character.toNat - '0'.toNat))
      omega

theorem boundedFrom_eq_ok (digits : ∀ character ∈ characters, character.isDigit = true)
    (fits : Nat.ofDigitChars 10 characters value ≤ maxUInt64) :
    boundedFrom value characters = .ok (Nat.ofDigitChars 10 characters value) := by
  induction characters generalizing value with
  | nil => rfl
  | cons character characters ih =>
      have first := digits character List.mem_cons_self
      have others : ∀ other ∈ characters, other.isDigit = true := fun other mem =>
        digits other (List.mem_cons_of_mem _ mem)
      rw [Nat.ofDigitChars_cons, Nat.mul_comm 10] at fits ⊢
      -- The sum so far is at most the whole number, so no digit exceeds the bound.
      have soFar : value * 10 + (character.toNat - '0'.toNat) ≤ maxUInt64 :=
        (le_ofDigitChars _ characters).trans fits
      rw [boundedFrom, digitValue?_of_isDigit first]
      dsimp only
      rw [if_pos soFar]
      exact ih others fits

theorem isDigit_of_mem_decimal {character : Char} (mem : character ∈ (decimal number).toList) :
    character.isDigit = true := by
  rw [decimal, String.toList_ofList] at mem
  exact Nat.isDigit_of_mem_toDigits (by decide) (by decide) mem

theorem decimal_ne_nil (number : Nat) : (decimal number).toList ≠ [] := by
  rw [decimal, String.toList_ofList]
  exact Nat.toDigits_ne_nil

theorem ofDigitChars_decimal (number : Nat) :
    Nat.ofDigitChars 10 (decimal number).toList 0 = number := by
  rw [decimal, String.toList_ofList, Nat.ofDigitChars_ten_toDigits]

/-- The decimal text of a positive number has no leading zero. -/
theorem decimal_eq_cons (positive : 0 < number) :
    ∃ first rest, (decimal number).toList = first :: rest ∧ first ≠ '0' := by
  rw [decimal, String.toList_ofList]
  induction number using Nat.strongRecOn with
  | ind number ih =>
      rw [Nat.toDigits_eq_if (by decide)]
      split
      · next single =>
        refine ⟨_, _, rfl, ?_⟩
        have nonzero : ∀ digit < 10, 0 < digit → Nat.digitChar digit ≠ '0' := by decide
        exact nonzero number single positive
      · next several =>
        obtain ⟨first, rest, split, nonzero⟩ := ih (number / 10) (by omega) (by omega)
        exact ⟨first, _, by rw [split]; rfl, nonzero⟩

theorem digitsFrom_eq_some (reads : digitsFrom value characters = some number) :
    (∀ character ∈ characters, character.isDigit = true) ∧
      number = Nat.ofDigitChars 10 characters value := by
  induction characters generalizing value with
  | nil =>
      cases reads
      exact ⟨by simp, rfl⟩
  | cons character characters ih =>
      unfold digitsFrom at reads
      split at reads
      · next digit found =>
        obtain ⟨isDigit, rfl⟩ := digitValue?_eq_some found
        obtain ⟨digits, worth⟩ := ih reads
        refine ⟨List.forall_mem_cons.mpr ⟨isDigit, digits⟩, ?_⟩
        rw [worth, Nat.ofDigitChars_cons, Nat.mul_comm 10]
      · cases reads

/-- One or more digits are read as what they are worth, and nothing else is read. -/
theorem digits?_eq_some_iff :
    digits? characters = some number ↔
      characters ≠ [] ∧ (∀ character ∈ characters, character.isDigit = true) ∧
        number = Nat.ofDigitChars 10 characters 0 := by
  unfold digits?
  split
  · simp
  · next nonempty =>
    constructor
    · exact fun reads => ⟨nonempty, digitsFrom_eq_some reads⟩
    · rintro ⟨-, digits, rfl⟩
      exact digitsFrom_eq_ofDigitChars digits 0

theorem digits?_decimal (number : Nat) : digits? (decimal number).toList = some number :=
  digits?_eq_some_iff.mpr ⟨decimal_ne_nil number, fun _ mem => isDigit_of_mem_decimal mem,
    (ofDigitChars_decimal number).symm⟩

/-- A text of an unsigned number: its decimal text behind leading zeros and at most one plus
sign. -/
def Writes (text : List Char) (number : Nat) : Prop :=
  ∃ sign zeros, (sign = [] ∨ sign = ['+']) ∧
    text = sign ++ List.replicate zeros '0' ++ (decimal number).toList

theorem bounded_of_digits (nonempty : characters ≠ [])
    (digits : ∀ character ∈ characters, character.isDigit = true) :
    bounded characters = boundedFrom 0 characters ∧
      bounded ('+' :: characters) = boundedFrom 0 characters := by
  cases characters with
  | nil => exact absurd rfl nonempty
  | cons character characters =>
      have notPlus : character ≠ '+' := by
        rintro rfl
        exact absurd (digits '+' List.mem_cons_self) (by decide)
      refine ⟨?_, rfl⟩
      unfold bounded
      split
      · next same => cases same
      · next same =>
        cases same
        exact absurd rfl notPlus
      · next same =>
        cases same
        exact absurd rfl notPlus
      · rfl

/-- Every text of a number within the bound is read as that number. -/
theorem bounded_of_writes {text : List Char} (writes : Writes text number)
    (fits : number ≤ maxUInt64) : bounded text = .ok number := by
  obtain ⟨sign, zeros, signed, rfl⟩ := writes
  generalize digitsEq : List.replicate zeros '0' ++ (decimal number).toList = digits
  have nonempty : digits ≠ [] := by
    rw [← digitsEq]
    exact List.append_ne_nil_of_right_ne_nil _ (decimal_ne_nil number)
  have areDigits : ∀ character ∈ digits, character.isDigit = true := by
    intro character mem
    rw [← digitsEq] at mem
    rcases List.mem_append.mp mem with zero | digit
    · rw [List.eq_of_mem_replicate zero]
      decide
    · exact isDigit_of_mem_decimal digit
  have worth : Nat.ofDigitChars 10 digits 0 = number := by
    rw [← digitsEq, Nat.ofDigitChars_append, Nat.ofDigitChars_replicate_zero, Nat.mul_zero,
      ofDigitChars_decimal]
  have reads : boundedFrom 0 digits = .ok number := by
    rw [boundedFrom_eq_ok areDigits (by rwa [worth]), worth]
  obtain ⟨plain, signedToo⟩ := bounded_of_digits nonempty areDigits
  rw [List.append_assoc, digitsEq]
  rcases signed with rfl | rfl
  · exact plain.trans reads
  · exact signedToo.trans reads

theorem toNat_bounds_of_isDigit {character : Char} (digit : character.isDigit = true) :
    48 ≤ character.toNat ∧ character.toNat ≤ 57 := by
  simpa [Char.isDigit, UInt32.le_iff_toNat_le] using digit

theorem digitChar_of_isDigit {character : Char} (digit : character.isDigit = true) :
    character.toNat - '0'.toNat < 10 ∧
      Nat.digitChar (character.toNat - '0'.toNat) = character := by
  have bounds := toNat_bounds_of_isDigit digit
  have zero : '0'.toNat = 48 := rfl
  refine ⟨by omega, ?_⟩
  have ten : ∀ number < 10, Nat.digitChar number = Char.ofNat (48 + number) := by decide
  rw [ten _ (by omega), zero, Nat.add_sub_cancel' bounds.1, Char.ofNat_toNat]

/-- Digits are the decimal text of what they are worth, behind leading zeros. -/
theorem exists_leading_zeros (nonempty : characters ≠ [])
    (digits : ∀ character ∈ characters, character.isDigit = true) :
    ∃ zeros, characters = List.replicate zeros '0' ++
      (decimal (Nat.ofDigitChars 10 characters 0)).toList := by
  induction characters using List.reverseRecOn with
  | nil => exact absurd rfl nonempty
  | append_singleton front last ih =>
      obtain ⟨small, lastEq⟩ := digitChar_of_isDigit (digits last (by simp))
      have worth : Nat.ofDigitChars 10 (front ++ [last]) 0 =
          10 * Nat.ofDigitChars 10 front 0 + (last.toNat - '0'.toNat) := by
        rw [Nat.ofDigitChars_append, Nat.ofDigitChars_cons, Nat.ofDigitChars_nil]
      rw [worth]
      generalize last.toNat - '0'.toNat = digit at small lastEq
      by_cases empty : front = []
      · subst empty
        refine ⟨0, ?_⟩
        simp [decimal, Nat.toDigits_of_lt_base small, lastEq]
      · obtain ⟨zeros, frontEq⟩ := ih empty fun character mem =>
          digits character (List.mem_append_left _ mem)
        generalize Nat.ofDigitChars 10 front 0 = value at frontEq
        by_cases zero : value = 0
        · subst zero
          refine ⟨zeros + 1, ?_⟩
          have frontZeros : front = List.replicate (zeros + 1) '0' := by
            rw [frontEq, List.replicate_succ']
            rfl
          simp [frontZeros, decimal, Nat.toDigits_of_lt_base small, lastEq]
        · refine ⟨zeros, ?_⟩
          have split : Nat.toDigits 10 (10 * value + digit) =
              Nat.toDigits 10 value ++ [Nat.digitChar digit] := by
            rw [Nat.toDigits_of_base_le (by decide) (by omega), Nat.mul_add_div (by decide),
              Nat.div_eq_of_lt small, Nat.add_zero, Nat.mul_add_mod, Nat.mod_eq_of_lt small]
          rw [decimal, String.toList_ofList] at frontEq ⊢
          rw [split, ← List.append_assoc, ← frontEq, lastEq]

theorem digits_of_boundedFrom_eq_ok (reads : boundedFrom value characters = .ok number)
    (soFar : value ≤ maxUInt64) :
    (∀ character ∈ characters, character.isDigit = true) ∧
      number = Nat.ofDigitChars 10 characters value ∧ number ≤ maxUInt64 := by
  induction characters generalizing value with
  | nil =>
      cases reads
      exact ⟨by simp, rfl, soFar⟩
  | cons character characters ih =>
      unfold boundedFrom at reads
      split at reads
      · cases reads
      · next digit found =>
        obtain ⟨isDigit, rfl⟩ := digitValue?_eq_some found
        split at reads
        · next fits =>
          obtain ⟨digits, worth, bound⟩ := ih reads fits
          refine ⟨List.forall_mem_cons.mpr ⟨isDigit, digits⟩, ?_, bound⟩
          rw [worth, Nat.ofDigitChars_cons, Nat.mul_comm 10]
        · cases reads

theorem exists_digits_of_bounded_eq_ok {text : List Char} (reads : bounded text = .ok number) :
    ∃ sign digits, (sign = [] ∨ sign = ['+']) ∧ text = sign ++ digits ∧ digits ≠ [] ∧
      boundedFrom 0 digits = .ok number := by
  unfold bounded at reads
  split at reads
  · cases reads
  · cases reads
  · next digits more =>
    exact ⟨['+'], digits, Or.inr rfl, rfl, fun empty => more (by rw [empty]), reads⟩
  · next nonempty _ _ => exact ⟨[], text, Or.inl rfl, rfl, nonempty, reads⟩

/-- The texts that are read as a number are those that write it, if it is within the bound. -/
theorem bounded_eq_ok_iff {text : List Char} :
    bounded text = .ok number ↔ Writes text number ∧ number ≤ maxUInt64 := by
  constructor
  · intro reads
    obtain ⟨sign, digits, signed, rfl, nonempty, readsDigits⟩ :=
      exists_digits_of_bounded_eq_ok reads
    obtain ⟨areDigits, worth, fits⟩ := digits_of_boundedFrom_eq_ok readsDigits (Nat.zero_le _)
    obtain ⟨zeros, digitsEq⟩ := exists_leading_zeros nonempty areDigits
    refine ⟨⟨sign, zeros, signed, ?_⟩, fits⟩
    rw [worth, List.append_assoc, ← digitsEq]
  · rintro ⟨writes, fits⟩
    exact bounded_of_writes writes fits

/-- A number written as one or more digits behind at most one sign. -/
inductive Literal : List Char → Int → Prop
  | plain {digits : List Char} (nonempty : digits ≠ [])
      (areDigits : ∀ character ∈ digits, character.isDigit = true) :
      Literal digits (Nat.ofDigitChars 10 digits 0)
  | plus {digits : List Char} (nonempty : digits ≠ [])
      (areDigits : ∀ character ∈ digits, character.isDigit = true) :
      Literal ('+' :: digits) (Nat.ofDigitChars 10 digits 0)
  | minus {digits : List Char} (nonempty : digits ≠ [])
      (areDigits : ∀ character ∈ digits, character.isDigit = true) :
      Literal ('-' :: digits) (-Nat.ofDigitChars 10 digits 0)

/-- A written number within the range of 32 bits. -/
structure Int32Literal (text : List Char) (number : Int) : Prop where
  literal : Literal text number
  lower : -2147483648 ≤ number
  upper : number ≤ 2147483647

section Signed

variable {text : List Char} {number : Int}

theorem signed?_of_digits (digits : ∀ character ∈ text, character.isDigit = true) :
    signed? text = (digits? text).map Int.ofNat := by
  unfold signed?
  split
  · exact absurd (digits '+' List.mem_cons_self) (by decide)
  · exact absurd (digits '-' List.mem_cons_self) (by decide)
  · rfl

theorem signed?_eq_some_iff : signed? text = some number ↔ Literal text number := by
  constructor
  · intro reads
    unfold signed? at reads
    split at reads
    all_goals
      obtain ⟨value, readsDigits, rfl⟩ := Option.map_eq_some_iff.mp reads
      obtain ⟨nonempty, areDigits, rfl⟩ := digits?_eq_some_iff.mp readsDigits
    · exact .plus nonempty areDigits
    · exact .minus nonempty areDigits
    · exact .plain nonempty areDigits
  · intro literal
    cases literal with
    | plain nonempty areDigits =>
        rw [signed?_of_digits areDigits,
          digits?_eq_some_iff.mpr ⟨nonempty, areDigits, rfl⟩]
        rfl
    | plus nonempty areDigits =>
        rw [signed?, digits?_eq_some_iff.mpr ⟨nonempty, areDigits, rfl⟩]
        rfl
    | minus nonempty areDigits =>
        rw [signed?, digits?_eq_some_iff.mpr ⟨nonempty, areDigits, rfl⟩]
        rfl

/-- The signed numbers of 32 bits are read from all their texts and from nothing else. -/
theorem int32?_eq_some_iff : int32? text = some number ↔ Int32Literal text number := by
  rw [int32?, Option.filter_eq_some_iff, signed?_eq_some_iff, fitsInt32_iff]
  exact ⟨fun ⟨literal, lower, upper⟩ => ⟨literal, lower, upper⟩,
    fun ⟨literal, lower, upper⟩ => ⟨literal, lower, upper⟩⟩

theorem isBlank_of_isDigit {character : Char} (digit : character.isDigit = true) :
    isBlank character = false := by
  have bounds := toNat_bounds_of_isDigit digit
  simp only [isBlank, blankRanges, List.any_cons, List.any_nil, Bool.or_false,
    Bool.or_eq_false_iff, Bool.and_eq_false_iff, decide_eq_false_iff_not]
  omega

/-- There is no white space in a written number. -/
theorem Literal.solid (literal : Literal text number) :
    ∀ character ∈ text, isBlank character = false := by
  cases literal with
  | plain _ areDigits => exact fun character mem => isBlank_of_isDigit (areDigits character mem)
  | plus _ areDigits | minus _ areDigits =>
      exact List.forall_mem_cons.mpr
        ⟨rfl, fun character mem => isBlank_of_isDigit (areDigits character mem)⟩

/-- The decimal text of a number is a text of that number. -/
theorem literal_signedDecimal (number : Int) : Literal (signedDecimal number).toList number := by
  cases number with
  | ofNat value =>
      have written := Literal.plain (decimal_ne_nil value) fun _ mem => isDigit_of_mem_decimal mem
      rwa [ofDigitChars_decimal] at written
  | negSucc value =>
      have written := Literal.minus (decimal_ne_nil (value + 1))
        fun _ mem => isDigit_of_mem_decimal mem
      rw [ofDigitChars_decimal] at written
      rw [signedDecimal, String.toList_append]
      exact written

end Signed

end CaseHarness.Text.Numeral
