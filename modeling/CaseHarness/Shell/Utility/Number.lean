import CaseHarness.Text.Decimal

/-!
# Numbers in arguments

An argument begins with white space and a sign, and then holds a whole number in
decimal, octal or hexadecimal digits, or a decimal fraction.  A reader gives the
number that an argument begins with and what follows it.
-/

namespace CaseHarness.Shell

/-- A whole number as it is written. -/
structure Whole where
  negative : Bool
  magnitude : Nat
  deriving DecidableEq, Repr

/-- The number that is written. -/
def Whole.value (whole : Whole) : Int :=
  if whole.negative then -Int.ofNat whole.magnitude else Int.ofNat whole.magnitude

/-- A number that may have a fraction, exactly as it is written. -/
inductive Real where
  | finite (negative : Bool) (numerator denominator : Nat)
  | infinite (negative : Bool)
  | noNumber (negative : Bool)
  deriving DecidableEq, Repr

namespace Number

def isSpace (character : Char) : Bool :=
  character = ' ' || ('\t' ≤ character && character ≤ '\r')

/-- The sign behind white space, and what follows it. -/
def signOf (characters : List Char) : Bool × List Char :=
  match characters.dropWhile isSpace with
  | '-' :: rest => (true, rest)
  | '+' :: rest => (false, rest)
  | rest => (false, rest)

/-- The value of the digits that some characters begin with in a base, how many they are, and what
follows them. -/
def digitsOf (base : Nat) (characters : List Char) : Nat × Nat × List Char :=
  let digits := characters.takeWhile fun digit => (Text.Numeral.digitIn? base digit).isSome
  (digits.foldl (fun value digit => value * base + (Text.Numeral.digitIn? base digit).getD 0) 0,
    digits.length, characters.drop digits.length)

def isHexadecimal : List Char → Bool
  | '0' :: mark :: digit :: _ =>
      (mark = 'x' || mark = 'X') && (Text.Numeral.digitIn? 16 digit).isSome
  | _ => false

/-- The whole number that an argument begins with.  Unless `plain` is set, `0x` introduces
hexadecimal digits and `0` octal ones. -/
def whole? (plain : Bool) (characters : List Char) : Option (Whole × List Char) :=
  let (negative, begun) := signOf characters
  let (base, skipped) :=
    if plain then (10, 0)
    else if isHexadecimal begun then (16, 2)
    else if begun.head? = some '0' then (8, 0)
    else (10, 0)
  let (value, count, rest) := digitsOf base (begun.drop skipped)
  if count = 0 then none else some (⟨negative, value⟩, rest)

/-- An argument that is a whole number with nothing but white space around it. -/
def decimal? (argument : String) : Option Int :=
  match whole? true argument.toList with
  | some (whole, rest) => if rest.all isSpace then some whole.value else none
  | none => none

/-- The greatest signed number of 64 bits. -/
def greatest : Nat :=
  Nat.pow 2 63 - 1

/-- Whether a number has at most 64 bits together with its sign. -/
def fits (value : Int) : Bool :=
  -Int.ofNat greatest - 1 ≤ value && value ≤ Int.ofNat greatest

/-- An argument that counts something: a decimal number of 31 bits. -/
def count? (argument : String) : Option Nat :=
  match decimal? argument with
  | some value => if 0 ≤ value ∧ value < Nat.pow 2 31 then some value.toNat else none
  | none => none

/-- The word that some characters begin with, upper and lower case alike, and what follows it. -/
def afterWord? (word : String) (characters : List Char) : Option (List Char) :=
  if (characters.take word.length).map Char.toLower = word.toList then
    some (characters.drop word.length)
  else none

/-- The greatest power of ten that makes a difference. -/
def greatestPower : Nat :=
  5000

/-- The power of ten that characters introduce, and what follows them. -/
def powerOf (characters : List Char) : Int × List Char :=
  match characters with
  | 'e' :: rest | 'E' :: rest =>
      let (negative, begun) :=
        match rest with
        | '-' :: digits => (true, digits)
        | '+' :: digits => (false, digits)
        | digits => (false, digits)
      let (value, count, following) := digitsOf 10 begun
      let power := Int.ofNat (min value greatestPower)
      if count = 0 then (0, characters) else (if negative then -power else power, following)
  | _ => (0, characters)

/-- The number with a fraction that an argument begins with, and what follows it. -/
def real? (characters : List Char) : Option (Real × List Char) :=
  let (negative, begun) := signOf characters
  match afterWord? "infinity" begun, afterWord? "inf" begun, afterWord? "nan" begun with
  | some rest, _, _ | none, some rest, _ => some (.infinite negative, rest)
  | none, none, some rest => some (.noNumber negative, rest)
  | none, none, none =>
      if isHexadecimal begun then
        let (value, _, rest) := digitsOf 16 (begun.drop 2)
        some (.finite negative value 1, rest)
      else
        let (whole, wholeCount, behind) := digitsOf 10 begun
        let (fraction, places, afterFraction) :=
          match behind with
          | '.' :: rest => digitsOf 10 rest
          | _ => (0, 0, behind)
        if wholeCount + places = 0 then none
        else
          let (power, rest) := powerOf afterFraction
          some (.finite negative ((whole * Nat.pow 10 places + fraction) * Nat.pow 10 power.toNat)
            (Nat.pow 10 places * Nat.pow 10 (-power).toNat), rest)

end Number

end CaseHarness.Shell
