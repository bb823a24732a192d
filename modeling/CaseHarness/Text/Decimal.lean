import CaseHarness.Text.Numeral

/-!
# Seconds as decimal text

A length of time is shown in seconds as the shortest decimal that reads back as
the same binary fraction of 53 significant bits.  All arithmetic is exact: a
binary fraction is a whole number times a power of two, and every operation
rounds the true result once, a tie going to the even neighbour.
-/

namespace CaseHarness.Text.Decimal

/-- The non-negative binary fraction `significand * 2 ^ exponent`. -/
structure BinaryFraction where
  significand : Nat
  exponent : Int
  deriving DecidableEq, Repr

/-- The number of bits of a significand. -/
def precision : Nat :=
  53

/-- The numerator over the denominator that `BinaryFraction.denominator` gives. -/
def BinaryFraction.numerator (fraction : BinaryFraction) : Nat :=
  fraction.significand * Nat.pow 2 fraction.exponent.toNat

/-- The power of two below the fraction line. -/
def BinaryFraction.denominator (fraction : BinaryFraction) : Nat :=
  Nat.pow 2 (-fraction.exponent).toNat

/-- A quotient rounded to the nearest whole number, a tie going to the even one. -/
def roundQuotient (numerator denominator : Nat) : Nat :=
  let quotient := numerator / denominator
  let twice := 2 * (numerator % denominator)
  if twice < denominator then quotient
  else if denominator < twice then quotient + 1
  else quotient + quotient % 2

/-- How many bits a whole number has. -/
def bitLength (value : Nat) : Nat :=
  if value = 0 then 0 else Nat.log2 value + 1

/-- The exponent at which a quotient has a significand of full width. -/
def fullExponent (numerator denominator : Nat) : Int :=
  let guess : Int := (bitLength numerator : Int) - bitLength denominator - precision
  let scaled := numerator * Nat.pow 2 (-guess).toNat
  let unit := denominator * Nat.pow 2 guess.toNat
  if scaled < unit * Nat.pow 2 precision then guess else guess + 1

/-- The binary fraction nearest to a quotient. -/
def round (numerator denominator : Nat) : BinaryFraction :=
  let exponent := fullExponent numerator denominator
  let significand :=
    roundQuotient (numerator * Nat.pow 2 (-exponent).toNat) (denominator * Nat.pow 2 exponent.toNat)
  if significand = Nat.pow 2 precision then ⟨Nat.pow 2 (precision - 1), exponent + 1⟩
  else ⟨significand, exponent⟩

/-- The binary fraction nearest to a whole number. -/
def ofNat (value : Nat) : BinaryFraction :=
  round value 1

/-- Divide by a whole number, rounding once. -/
def BinaryFraction.divNat (fraction : BinaryFraction) (divisor : Nat) : BinaryFraction :=
  round fraction.numerator (fraction.denominator * divisor)

/-- Add two binary fractions, rounding once. -/
def BinaryFraction.add (left right : BinaryFraction) : BinaryFraction :=
  round (left.numerator * right.denominator + right.numerator * left.denominator)
    (left.denominator * right.denominator)

/-- A decimal `digits * 10 ^ power`. -/
structure Scaled where
  digits : Nat
  power : Int
  deriving DecidableEq, Repr

/-- Twice the distance from a fraction to a decimal, over the common denominator
`fraction.denominator * 10 ^ (-power)`. -/
def doubledDistance (fraction : BinaryFraction) (candidate : Scaled) : Nat :=
  let exact := fraction.numerator * Nat.pow 10 (-candidate.power).toNat
  let shown := candidate.digits * Nat.pow 10 candidate.power.toNat * fraction.denominator
  2 * ((exact - shown) + (shown - exact))

/-- Whether a decimal reads back as the fraction: it lies within half a step of
the significand, the end of that interval included for an even significand.
Below a power of two the step is half as wide. -/
def readsBack (fraction : BinaryFraction) (candidate : Scaled) : Bool :=
  let shown := candidate.digits * Nat.pow 10 candidate.power.toNat * fraction.denominator
  let exact := fraction.numerator * Nat.pow 10 (-candidate.power).toNat
  let step := Nat.pow 2 fraction.exponent.toNat * Nat.pow 10 (-candidate.power).toNat
  let distance := doubledDistance fraction candidate
  let narrow := shown < exact && fraction.significand = Nat.pow 2 (precision - 1)
  let reach := if narrow then 2 * distance else distance
  if fraction.significand % 2 = 0 then reach ≤ step else reach < step

/-- The two neighbours of a fraction on the grid of multiples of `10 ^ power`,
the nearer one first; of two at the same distance the greater counts as nearer. -/
def neighbours (fraction : BinaryFraction) (power : Int) : List Scaled :=
  let below :=
    fraction.numerator * Nat.pow 10 (-power).toNat / (fraction.denominator * Nat.pow 10 power.toNat)
  let lower : Scaled := ⟨below, power⟩
  let upper : Scaled := ⟨below + 1, power⟩
  if doubledDistance fraction lower < doubledDistance fraction upper then [lower, upper]
  else [upper, lower]

/-- Try finer and finer grids until a neighbour reads back. -/
def search (fraction : BinaryFraction) : Nat → Int → Scaled
  | 0, power => ((neighbours fraction power).head?).getD ⟨0, 0⟩
  | tries + 1, power =>
      match (neighbours fraction power).find? (readsBack fraction) with
      | some candidate => candidate
      | none => search fraction tries (power - 1)

/-- The shortest decimal that reads back as the fraction.  The search begins above
the first digit; a length of time of at least one nanosecond has its first digit
no later than the ninth place, and seventeen digits always read back. -/
def shortest (fraction : BinaryFraction) : Scaled :=
  let whole := fraction.numerator / fraction.denominator
  search fraction 40 (Nat.toDigits 10 whole).length

/-- A decimal without an exponent and without a fraction of zeros. -/
def Scaled.text (scaled : Scaled) : String :=
  if 0 ≤ scaled.power then
    Numeral.decimal (scaled.digits * Nat.pow 10 scaled.power.toNat)
  else
    let places := (-scaled.power).toNat
    let digits := Nat.toDigits 10 scaled.digits
    let padded := List.replicate (places + 1 - digits.length) '0' ++ digits
    let whole := padded.take (padded.length - places)
    let fraction := padded.drop (padded.length - places)
    String.ofList (whole ++ '.' :: fraction)

def BinaryFraction.text (fraction : BinaryFraction) : String :=
  if fraction.significand = 0 then "0" else (shortest fraction).text

def secondsOfMilliseconds (milliseconds : Nat) : String :=
  ((ofNat milliseconds).divNat 1000).text

/-- Whole seconds and nanoseconds shown in seconds. -/
def secondsOfParts (seconds nanoseconds : Nat) : String :=
  ((ofNat seconds).add ((ofNat nanoseconds).divNat 1000000000)).text

end CaseHarness.Text.Decimal
