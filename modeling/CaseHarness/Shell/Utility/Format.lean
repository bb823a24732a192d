import CaseHarness.Shell.Utility.Number
import CaseHarness.Shell.Utility.Output

/-!
# Formats

A format is a text with escapes and conversions.  Each conversion writes one
argument, and a format is used again as long as it uses up arguments.
-/

namespace CaseHarness.Shell

/-- How an argument is written. -/
structure Conversion where
  /-- The argument stands at the left side of its field. -/
  left : Bool := false
  /-- Numbers that are not negative get a plus sign. -/
  plus : Bool := false
  /-- Numbers that are not negative get a blank. -/
  blank : Bool := false
  /-- The base is shown, and the point even if no fraction follows. -/
  alternate : Bool := false
  /-- Numbers are filled up with zeros. -/
  zero : Bool := false
  width : Nat := 0
  precision : Option Nat := none
  letter : Char := 's'
  deriving DecidableEq, Repr

namespace Conversion

def withFlag (conversion : Conversion) : Char → Conversion
  | '-' => { conversion with left := true }
  | '+' => { conversion with plus := true }
  | ' ' => { conversion with blank := true }
  | '#' => { conversion with alternate := true }
  | '0' => { conversion with zero := true }
  | _ => conversion

/-- Fill bytes up to the width. -/
def pad (conversion : Conversion) (bytes : List UInt8) : List UInt8 :=
  let missing := List.replicate (conversion.width - bytes.length) 0x20
  if conversion.left then bytes ++ missing else missing ++ bytes

/-- Put a sign in front of a number and fill it up. -/
def padNumber (conversion : Conversion) (zeros : Bool) (sign digits : List Char) : List UInt8 :=
  let count := conversion.width - (sign.length + digits.length)
  let filled :=
    if zeros && conversion.zero && !conversion.left then sign ++ List.replicate count '0' ++ digits
    else sign ++ digits
  conversion.pad (Text.Utf8.encode (String.ofList filled))

def signOf (conversion : Conversion) (negative : Bool) : List Char :=
  if negative then ['-']
  else if conversion.plus then ['+']
  else if conversion.blank then [' ']
  else []

/-- At least as many digits as the precision asks for. -/
def leastDigits (conversion : Conversion) (base value : Nat) : List Char :=
  let digits := if value = 0 then [] else Nat.toDigits base value
  List.replicate (conversion.precision.getD 1 - digits.length) '0' ++ digits

def writeWhole (conversion : Conversion) (value : Int) : List UInt8 :=
  let unsigned := (value % Nat.pow 2 64).toNat
  let zeros := conversion.precision.isNone
  let based := fun (base : Nat) (mark : String) =>
    let sign := if conversion.alternate ∧ unsigned ≠ 0 then mark.toList else []
    conversion.padNumber zeros sign (conversion.leastDigits base unsigned)
  match conversion.letter with
  | 'u' => conversion.padNumber zeros [] (conversion.leastDigits 10 unsigned)
  | 'o' =>
      let digits := conversion.leastDigits 8 unsigned
      conversion.padNumber zeros []
        (if conversion.alternate ∧ digits.head? ≠ some '0' then '0' :: digits else digits)
  | 'x' => based 16 "0x"
  | 'X' => (based 16 "0x").map fun byte => if 0x61 ≤ byte ∧ byte ≤ 0x7A then byte - 0x20 else byte
  | _ =>
      conversion.padNumber zeros (conversion.signOf (value < 0))
        (conversion.leastDigits 10 value.natAbs)

/-- A quotient with some decimal places. -/
def fixedText (conversion : Conversion) (places numerator denominator : Nat) : List Char :=
  let digits :=
    Nat.toDigits 10 (Text.Decimal.roundQuotient (numerator * Nat.pow 10 places) denominator)
  let padded := List.replicate (places + 1 - digits.length) '0' ++ digits
  let whole := padded.take (padded.length - places)
  if places = 0 ∧ conversion.alternate = false then whole
  else whole ++ '.' :: padded.drop (padded.length - places)

/-- The power of ten of the first digit of a quotient. -/
def firstPower (numerator denominator : Nat) : Int :=
  let guess : Int :=
    Int.ofNat (Nat.toDigits 10 numerator).length - Int.ofNat (Nat.toDigits 10 denominator).length
  if denominator * Nat.pow 10 guess.toNat ≤ numerator * Nat.pow 10 (-guess).toNat then guess
  else guess - 1

/-- A quotient rounded to one digit and some more, and the power of ten of the first one. -/
def rounded (places numerator denominator : Nat) : Nat × Int :=
  if numerator = 0 then (0, 0)
  else
    let power := firstPower numerator denominator
    let shift := Int.ofNat places - power
    let digits := Text.Decimal.roundQuotient (numerator * Nat.pow 10 shift.toNat)
      (denominator * Nat.pow 10 (-shift).toNat)
    if digits = Nat.pow 10 (places + 1) then (Nat.pow 10 places, power + 1) else (digits, power)

/-- A power of ten behind a number, with at least two digits. -/
def powerText (power : Int) : List Char :=
  let digits := Nat.toDigits 10 power.natAbs
  'e' :: (if power < 0 then '-' else '+') :: (List.replicate (2 - digits.length) '0' ++ digits)

/-- Digits with a point behind the first one. -/
def pointed (conversion : Conversion) (digits : List Char) : List Char :=
  match digits with
  | [only] => if conversion.alternate then [only, '.'] else [only]
  | first :: others => first :: '.' :: others
  | [] => []

/-- A fraction without the zeros at its end. -/
def withoutZeros (text : List Char) : List Char :=
  if text.contains '.' then
    let kept := (text.reverse.dropWhile fun digit => digit = '0').reverse
    if kept.getLast? = some '.' then kept.dropLast else kept
  else text

/-- A quotient in the shorter of two forms. -/
def generalText (conversion : Conversion) (numerator denominator : Nat) : List Char :=
  let precision := max 1 (conversion.precision.getD 6)
  let (digits, power) := rounded (precision - 1) numerator denominator
  let shorten := fun text : List Char => if conversion.alternate then text else withoutZeros text
  if -4 ≤ power ∧ power < Int.ofNat precision then
    shorten (conversion.fixedText (Int.ofNat precision - 1 - power).toNat numerator denominator)
  else
    let shown := Nat.toDigits 10 digits
    let filled := shown ++ List.replicate (precision - shown.length) '0'
    shorten (conversion.pointed filled) ++ powerText power

/-- A binary fraction in hexadecimal digits and a power of two. -/
def binaryText (fraction : Text.Decimal.BinaryFraction) : List Char :=
  if fraction.significand = 0 then "0x0p+0".toList
  else
    let power := fraction.exponent + 52
    let digits := Nat.toDigits 16 (fraction.significand - Nat.pow 2 52)
    let padded := List.replicate (13 - digits.length) '0' ++ digits
    let kept := (padded.reverse.dropWhile fun digit => digit = '0').reverse
    "0x1".toList ++ (if kept = [] then [] else '.' :: kept) ++
      ['p', if power < 0 then '-' else '+'] ++ Nat.toDigits 10 power.natAbs

def quotientText (conversion : Conversion) (numerator denominator : Nat) : List Char :=
  let places := conversion.precision.getD 6
  match conversion.letter.toLower with
  | 'f' => conversion.fixedText places numerator denominator
  | 'e' =>
      let (digits, power) := rounded places numerator denominator
      let shown := Nat.toDigits 10 digits
      conversion.pointed (shown ++ List.replicate (places + 1 - shown.length) '0') ++
          powerText power
  | 'g' => conversion.generalText numerator denominator
  | _ =>
      binaryText
        (if numerator = 0 then ⟨0, 0⟩ else Text.Decimal.round numerator denominator)

/-- Write a number with a fraction, which is rounded to a binary fraction with `binary`. -/
def writeReal (conversion : Conversion) (binary : Bool) (value : Real) : List UInt8 :=
  let upper := fun text : List Char =>
    if conversion.letter.isUpper then text.map Char.toUpper else text
  match value with
  | .infinite negative =>
      conversion.padNumber false (conversion.signOf negative) (upper "inf".toList)
  | .noNumber negative =>
      conversion.padNumber false (conversion.signOf negative) (upper "nan".toList)
  | .finite negative numerator denominator =>
      let (top, bottom) :=
        if binary && numerator ≠ 0 then
          let fraction := Text.Decimal.round numerator denominator
          (fraction.numerator, fraction.denominator)
        else (numerator, denominator)
      conversion.padNumber true (conversion.signOf negative)
        (upper (conversion.quotientText top bottom))

end Conversion

namespace Utility

/-- What a format does. -/
inductive Deed where
  | wrote (bytes : List UInt8)
  | complained (text : String)
  deriving DecidableEq, Repr

/-- What is left of an argument that was read as a number. -/
inductive Remainder where
  | nothing
  /-- The argument does not begin with a number. -/
  | all
  /-- Something follows the number. -/
  | part
  /-- The number is too great or too small. -/
  | range
  /-- Characters follow the one whose number is meant. -/
  | behind (characters : String)
  deriving DecidableEq, Repr

/-- What is said about an argument that is no number, and whether it is a fault. -/
def Remainder.fault? (origin : Origin) (argument : String) : Remainder → Option (String × Bool)
  | .nothing => none
  | .all =>
      match origin with
      | .shell =>
          if argument.isEmpty then none else some (argument ++ ": expected numeric value", true)
      | .program =>
          if argument.isEmpty then none
          else some (inQuotes argument ++ ": expected a numeric value", true)
  | .part =>
      match origin with
      | .shell => some (argument ++ ": not completely converted", true)
      | .program => some (inQuotes argument ++ ": value not completely converted", true)
  | .range =>
      let shown := match origin with
        | .shell => argument
        | .program => inQuotes argument
      some (shown ++ ": Numerical result out of range", true)
  | .behind characters =>
      match origin with
      | .shell => none
      | .program =>
          some ("warning: " ++ characters ++
            ": character(s) following character constant have been ignored", false)

/-- The number of the character behind a quote, if an argument begins with one. -/
def quotedNumber? (argument : String) : Option (Int × Remainder) :=
  match argument.toList with
  | '\x27' :: rest | '"' :: rest =>
      let number := ((Text.Utf8.encode (String.ofList rest)).head?.map UInt8.toNat).getD 0
      let following := rest.drop 1
      some (Int.ofNat number,
        if following = [] then .nothing else .behind (String.ofList following))
  | _ => none

/-- The whole number that an argument stands for, between two limits. -/
def wholeArgument (signed : Bool) (argument : String) : Int × Remainder :=
  match quotedNumber? argument with
  | some found => found
  | none =>
      match Number.whole? false argument.toList with
      | none => (0, .all)
      | some (whole, rest) =>
          let greatest : Nat :=
            if !signed then Nat.pow 2 64 - 1
            else if whole.negative then Nat.pow 2 63
            else Nat.pow 2 63 - 1
          let value := (⟨whole.negative, min whole.magnitude greatest⟩ : Whole).value
          let clamped := if signed || whole.magnitude ≤ greatest then value else Int.ofNat greatest
          (clamped, if rest ≠ [] then .part
            else if greatest < whole.magnitude then .range
            else .nothing)

/-- The number with a fraction that an argument stands for. -/
def realArgument (argument : String) : Real × Remainder :=
  match quotedNumber? argument with
  | some (value, remainder) => (.finite false value.toNat 1, remainder)
  | none =>
      match Number.real? argument.toList with
      | none => (.finite false 0 1, .all)
      | some (value, rest) => (value, if rest = [] then .nothing else .part)

/-- How a format goes on. -/
inductive Progress where
  /-- To its end; the flag says whether an argument was used. -/
  | through (used : Bool)
  /-- An escape ended the output. -/
  | stopped
  /-- The format is wrong. -/
  | refused (text : String)
  deriving DecidableEq, Repr

/-- What a format has done, the arguments that it has left, and how it goes on. -/
structure Formatted where
  deeds : List Deed
  left : List String
  progress : Progress
  deriving Repr

/-- Put deeds in front. -/
def Formatted.after (formatted : Formatted) (deeds : List Deed) : Formatted :=
  { formatted with deeds := deeds ++ formatted.deeds }

/-- Note that an argument has been used. -/
def Formatted.using (formatted : Formatted) : Formatted :=
  match formatted.progress with
  | .through _ => { formatted with progress := .through true }
  | _ => formatted

/-- The deeds that report what is left of an argument. -/
def Remainder.deeds (origin : Origin) (argument : String) (remainder : Remainder) : List Deed :=
  (remainder.fault? origin argument).toList.map fun entry => .complained entry.1

/-- A number in a conversion: its digits, or an argument for a star.  Gives the number, what follows
in the format, the arguments that are left, and the deeds. -/
def fieldNumber (origin : Origin) (characters : List Char) (arguments : List String) :
    Option Int × List Char × List String × List Deed :=
  match characters with
  | '*' :: rest =>
      let argument := arguments.headD ""
      let (value, remainder) := wholeArgument true argument
      (some value, rest, arguments.tail, remainder.deeds origin argument)
  | _ =>
      let (value, count, rest) := Number.digitsOf 10 characters
      (if count = 0 then none else some (Int.ofNat value), rest, arguments, [])

/-- The conversion behind a percent sign, up to its letter. -/
def conversionOf (origin : Origin) (characters : List Char) (arguments : List String) :
    Conversion × List Char × List String × List Deed :=
  let isFlag := fun character : Char => ['-', '0', '+', ' ', '#'].contains character
  let flagged := (characters.takeWhile isFlag).foldl Conversion.withFlag {}
  let (width, afterWidth, leftWidth, saidWidth) :=
    fieldNumber origin (characters.dropWhile isFlag) arguments
  let wide : Conversion :=
    match width with
    | some value =>
        { flagged with left := flagged.left || value < 0, width := min value.natAbs 1000000 }
    | none => flagged
  match afterWidth with
  | '.' :: behind =>
      let (precision, rest, left, said) := fieldNumber origin behind leftWidth
      let value := precision.getD 0
      ({ wide with precision := if value < 0 then none else some (min value.toNat 1000000) },
          rest, left,
        saidWidth ++ said)
  | rest => (wide, rest, leftWidth, saidWidth)

/-- The letters that change the length of a number and mean nothing here. -/
def isLength (origin : Origin) (character : Char) : Bool :=
  origin = .program && ['h', 'l', 'L', 'j', 'z', 't'].contains character

/-- Apply a conversion to an argument: the deeds, and whether the output ends.  Nothing is known
about other letters. -/
def convert? (origin : Origin) (conversion : Conversion) (argument : String) :
    Option (List Deed × Bool) :=
  let limited := fun bytes : List UInt8 =>
    match conversion.precision with
    | some most => bytes.take most
    | none => bytes
  match conversion.letter with
  | 'b' =>
      let escapes := if origin = .shell then Escapes.shellArgument else Escapes.programArgument
      let (bytes, stopped) := unescape escapes (argument.length + 1) argument.toList
      some ([.wrote (conversion.pad (limited bytes))], stopped)
  | 'c' =>
      let first := ((Text.Utf8.encode argument).head?).getD 0
      some ([.wrote (conversion.pad [first])], false)
  | 's' => some ([.wrote (conversion.pad (limited (Text.Utf8.encode argument)))], false)
  | 'd' | 'i' | 'o' | 'u' | 'x' | 'X' =>
      let signed := conversion.letter = 'd' ∨ conversion.letter = 'i'
      let (value, remainder) := wholeArgument signed argument
      some (remainder.deeds origin argument ++ [.wrote (conversion.writeWhole value)], false)
  | 'a' | 'A' | 'e' | 'E' | 'f' | 'F' | 'g' | 'G' =>
      let (value, remainder) := realArgument argument
      some (remainder.deeds origin argument ++
        [.wrote (conversion.writeReal (origin = .shell) value)], false)
  | _ => none

/-- What is said about a conversion that nothing is known about. -/
def unknownConversion (origin : Origin) (written : List Char) : String :=
  match origin with
  | .shell => "%" ++ String.ofList written ++ ": invalid directive"
  | .program => "%" ++ String.ofList written ++ ": invalid conversion specification"

/-- Whether an escape asks for hexadecimal digits that are not there. -/
def lacksDigits (rest : List Char) : Bool :=
  match rest with
  | 'x' :: others => ((others.head?).bind (Text.Numeral.digitIn? 16)).isNone
  | letter :: others =>
      (letter = 'u' || letter = 'U') && (universalDigits? letter others).isNone
  | [] => false

/-- One pass over a format. -/
def format (origin : Origin) : Nat → List Char → List String → Formatted
  | 0, _, arguments => ⟨[], arguments, .through false⟩
  | _ + 1, [], arguments => ⟨[], arguments, .through false⟩
  | fuel + 1, '%' :: '%' :: rest, arguments =>
      (format origin fuel rest arguments).after [.wrote [0x25]]
  | fuel + 1, '%' :: rest, arguments =>
      let (conversion, behind, left, said) := conversionOf origin rest arguments
      let named := behind.dropWhile (isLength origin)
      let written := fun tail : List Char => rest.take (rest.length - tail.length)
      match named with
      | [] =>
          let text :=
            match origin with
            | .shell => "missing format character"
            | .program => unknownConversion origin rest
          ⟨said, left, .refused text⟩
      | letter :: others =>
          let argument := left.headD ""
          match convert? origin { conversion with letter := letter } argument with
          | none => ⟨said, left, .refused (unknownConversion origin (written others))⟩
          | some (deeds, true) => ⟨said ++ deeds, left.tail, .stopped⟩
          | some (deeds, false) =>
              ((format origin fuel others left.tail).after (said ++ deeds)).using
  | fuel + 1, '\\' :: rest, arguments =>
      let escapes := if origin = .shell then Escapes.shellFormat else Escapes.programFormat
      if origin = .program && lacksDigits rest then
        ⟨[], arguments, .refused "missing hexadecimal number in escape"⟩
      else
        match escapes.read? rest with
        | none => ⟨[], arguments, .stopped⟩
        | some (bytes, following) => (format origin fuel following arguments).after [.wrote bytes]
  | fuel + 1, character :: rest, arguments =>
      (format origin fuel rest arguments).after [.wrote (String.utf8EncodeChar character)]

/-- Repeat a format while it uses up arguments. -/
def formatAll (origin : Origin) (template : List Char) : Nat → List String → Formatted
  | 0, arguments => ⟨[], arguments, .through false⟩
  | turns + 1, arguments =>
      let written := format origin (template.length + 1) template arguments
      match written.progress with
      | .through true =>
          if written.left = [] then written
          else (formatAll origin template turns written.left).after written.deeds
      | _ => written

def bytesOf (deeds : List Deed) : List UInt8 :=
  deeds.flatMap fun
    | .wrote bytes => bytes
    | .complained _ => []

def complainAll (origin : Origin) (state : State) (deeds : List Deed) : State :=
  deeds.foldl
    (fun current deed =>
      match deed with
      | .complained text => origin.report current text
      | .wrote _ => current)
    state

/-- Carry out deeds one by one; what is written is held back, the latest first, until something is
reported. -/
def performAll (state : State) (held : List (List UInt8)) : List Deed → State
  | [] => Origin.program.emit state held.reverse.flatten state.status
  | .wrote bytes :: rest => performAll state (bytes :: held) rest
  | .complained text :: rest =>
      performAll (Origin.program.report (state.write 1 held.reverse.flatten).1 text) [] rest

/-- Whether a deed makes the utility fail. -/
def Deed.isFault : Deed → Bool
  | .wrote _ => false
  | .complained text => !("warning: ".toList.isPrefixOf text.toList)

/-- Write values as a template asks for.  The shell reports all faults before it writes. -/
def formatWith (origin : Origin) (state : State) (template : String) (values : List String) :
    State :=
  let written := formatAll origin template.toList (values.length + 1) values
  let status := if written.deeds.any Deed.isFault then 1 else 0
  match origin, written.progress with
  | .shell, .refused text =>
      let complained := (complainAll .shell state written.deeds).complain text
      { (complained.write 1 (bytesOf written.deeds)).1 with status := 2, flow := .failed }
  | .shell, _ =>
      origin.emit (complainAll .shell state written.deeds) (bytesOf written.deeds) status
  | .program, .refused text =>
      performAll (state.withStatus 1) [] (written.deeds ++ [.complained text])
  | .program, progress =>
      let excess :=
        match progress, written.left with
        | .through _, first :: _ =>
            [Deed.complained
                ("warning: ignoring excess arguments, starting with " ++ inQuotes first)]
        | _, _ => []
      performAll (state.withStatus status) [] (written.deeds ++ excess)

/-- Write arguments as a format asks for. -/
def printf (origin : Origin) (state : State) (arguments : List String) : State :=
  match origin with
  | .shell =>
      match Options.ofCommand [] arguments with
      | .error fault => state.fail fault.shellText
      | .ok options =>
          match options.operands with
          | [] => state.fail "usage: printf format [arg ...]"
          | template :: values => formatWith origin state template values
  | .program =>
      match if arguments.head? = some "--" then arguments.tail else arguments with
      | [] => misuse state "missing operand" 1
      | template :: values => formatWith origin state template values

end Utility

end CaseHarness.Shell
