/-!
# Whole numbers in text

Decimal digits are the ten ASCII digits, with any number of leading zeros.
`signed?` reads a number with an optional sign; `bounded` reads an unsigned
number digit by digit and says which fault it met first.
-/

namespace CaseHarness.Text.Numeral

def digitValue? (character : Char) : Option Nat :=
  if '0' ≤ character ∧ character ≤ '9' then some (character.toNat - '0'.toNat) else none

/-- The value of a digit in a base up to sixteen. -/
def digitIn? (base : Nat) (character : Char) : Option Nat :=
  let value :=
    if '0' ≤ character ∧ character ≤ '9' then character.toNat - '0'.toNat
    else if 'a' ≤ character ∧ character ≤ 'f' then character.toNat - 'a'.toNat + 10
    else if 'A' ≤ character ∧ character ≤ 'F' then character.toNat - 'A'.toNat + 10
    else base
  if value < base then some value else none

/-- Continue a number with more digits. -/
def digitsFrom (value : Nat) : List Char → Option Nat
  | [] => some value
  | character :: rest =>
      match digitValue? character with
      | some digit => digitsFrom (value * 10 + digit) rest
      | none => none

/-- A number written as one or more digits. -/
def digits? : List Char → Option Nat
  | [] => none
  | characters => digitsFrom 0 characters

/-- A number written as digits after at most one sign. -/
def signed? : List Char → Option Int
  | '+' :: characters => (digits? characters).map Int.ofNat
  | '-' :: characters => (digits? characters).map fun value => -Int.ofNat value
  | characters => (digits? characters).map Int.ofNat

/-- The range of signed numbers of 32 bits. -/
def fitsInt32 (value : Int) : Bool :=
  -2147483648 ≤ value && value ≤ 2147483647

/-- A signed number of 32 bits. -/
def int32? (characters : List Char) : Option Int :=
  (signed? characters).filter fitsInt32

/-- The greatest unsigned number of 64 bits. -/
def maxUInt64 : Nat :=
  18446744073709551615

/-- Why a text is not an unsigned number of 64 bits. -/
inductive Fault where
  | empty
  | invalidDigit
  | tooLarge
  deriving DecidableEq, Repr

/-- Continue an unsigned number, stopping at the first character that spoils it. -/
def boundedFrom (value : Nat) : List Char → Except Fault Nat
  | [] => .ok value
  | character :: rest =>
      match digitValue? character with
      | none => .error .invalidDigit
      | some digit =>
          if value * 10 + digit ≤ maxUInt64 then boundedFrom (value * 10 + digit) rest
          else .error .tooLarge

/-- An unsigned number of 64 bits, with an optional plus sign. -/
def bounded : List Char → Except Fault Nat
  | [] => .error .empty
  | ['+'] => .error .invalidDigit
  | '+' :: characters => boundedFrom 0 characters
  | characters => boundedFrom 0 characters

/-- The decimal text of a whole number. -/
def decimal (value : Nat) : String :=
  String.ofList (Nat.toDigits 10 value)

/-- The decimal text of a whole number with a minus sign if it is negative. -/
def signedDecimal : Int → String
  | .ofNat value => decimal value
  | .negSucc value => "-" ++ decimal (value + 1)

@[simp]
theorem digits?_nil : digits? [] = none :=
  rfl

@[simp]
theorem digitsFrom_nil (value : Nat) : digitsFrom value [] = some value :=
  rfl

theorem fitsInt32_iff {value : Int} :
    fitsInt32 value = true ↔ -2147483648 ≤ value ∧ value ≤ 2147483647 := by
  simp [fitsInt32]

end CaseHarness.Text.Numeral
