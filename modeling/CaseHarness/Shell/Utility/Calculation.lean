import CaseHarness.Shell.Regular
import CaseHarness.Shell.Utility.Format

/-!
# Calculating

The utilities that write sequences of numbers, evaluate expressions and wait for
a length of time.
-/

namespace CaseHarness.Shell.Utility

/-! ### Sequences -/

/-- A decimal fraction: the digits as a whole number, and how many of them stand behind
the point. -/
structure Fraction where
  digits : Int
  places : Nat
  deriving DecidableEq, Repr

/-- The fraction that a whole argument stands for. -/
def fraction? (argument : String) : Option Fraction :=
  let characters := argument.toList
  let written := characters.takeWhile fun character => character ≠ 'e' && character ≠ 'E'
  let behindPoint := ((written.dropWhile fun character => character ≠ '.').drop 1).length
  match Number.real? characters with
  | some (.finite negative numerator denominator, []) =>
      let places := if written.length = characters.length then behindPoint else 0
      let scaled := numerator * Nat.pow 10 places / denominator
      some ⟨if negative then -Int.ofNat scaled else Int.ofNat scaled, places⟩
  | _ => none

/-- The digits of a fraction with more places. -/
def Fraction.scaledTo (fraction : Fraction) (places : Nat) : Int :=
  fraction.digits * Nat.pow 10 (places - fraction.places)

/-- A number with some places behind the point, at least as wide as asked for. -/
def fractionText (places width : Nat) (value : Int) : List Char :=
  let digits := Nat.toDigits 10 value.natAbs
  let padded := List.replicate (places + 1 - digits.length) '0' ++ digits
  let whole := padded.take (padded.length - places)
  let shown := if places = 0 then whole else whole ++ '.' :: padded.drop (padded.length - places)
  let sign := if value < 0 then ['-'] else []
  sign ++ List.replicate (width - (sign.length + shown.length)) '0' ++ shown

/-- The numbers from `first` on, `count` of them. -/
def sequence (first step : Int) : Nat → List Int
  | 0 => []
  | count + 1 => first :: sequence (first + step) step count

/-- The greatest count of numbers that are ever written. -/
def maxSequence : Nat :=
  2000000

/-- The options of the utility that writes sequences; a negative number is no option. -/
def sequenceOptions (arguments : List String) : Except OptionFault Options :=
  let isNumber := fun word : String => (Number.real? word.toList).isSome
  let before := arguments.takeWhile fun word => !isNumber word
  let kept := arguments.drop before.length
  let fromOption :=
    match before.getLast? with
    | some "-s" | some "-f" => 1
    | _ => 0
  (Options.beforeOperands
    ⟨[('s', true), ('w', false), ('f', true)],
      [("separator", 's'), ("equal-width", 'w'), ("format", 'f')]⟩
    (before ++ kept.take fromOption)).map
    fun options => { options with operands := options.operands ++ kept.drop fromOption }

/-- Write numbers, each on its own line. -/
def numbers (state : State) (arguments : List String) : State :=
  match sequenceOptions arguments with
  | .error fault => misuse state fault.text 1
  | .ok options =>
      match options.operands, options.operands[3]? with
      | [], _ => misuse state "missing operand" 1
      | _, some extra => misuse state ("extra operand " ++ inQuotes extra) 1
      | words, none =>
          match words.find? fun word => (fraction? word).isNone with
          | some wrong => misuse state ("invalid floating point argument: " ++ inQuotes wrong) 1
          | none =>
              let one : Fraction := ⟨1, 0⟩
              let (first, step, last) :=
                match words.filterMap fraction? with
                | [last] => (one, one, last)
                | [first, last] => (first, one, last)
                | [first, step, last] => (first, step, last)
                | _ => (one, one, one)
              if step.digits = 0 then
                misuse state ("invalid Zero increment value: " ++ inQuotes ((words[1]?).getD "")) 1
              else
                let places := max first.places step.places
                let scale := max places last.places
                let start := first.scaledTo scale
                let stride := step.scaledTo scale
                let finish := last.scaledTo scale
                let count :=
                  if 0 < stride then (finish - start).fdiv stride + 1
                  else (start - finish).fdiv (-stride) + 1
                let values := (sequence start stride (min count.toNat maxSequence)).map fun value =>
                  value.tdiv (Nat.pow 10 (scale - places))
                let width :=
                  if options.has 'w' then
                    ((values.map fun value => (fractionText places 0 value).length).foldl max 0)
                  else 0
                let shown := values.map fun value =>
                  match options.argument? 'f' with
                  | some template =>
                      bytesOf (format .program (template.length + 1) template.toList
                        [String.ofList (fractionText places 0 value)]).deeds
                  | none => Text.Utf8.encode (String.ofList (fractionText places width value))
                let separator := Text.Utf8.encode ((options.argument? 's').getD "\n")
                if shown = [] then state.withStatus 0
                else
                  emit (state.withStatus 0)
                    ((shown.intersperse separator).flatten ++ [Reader.newline])

/-! ### Waiting -/

/-- The length of time that an argument stands for, in nanoseconds. -/
def lengthOfTime? (argument : String) : Option Nat :=
  match Number.real? argument.toList with
  | some (value, rest) =>
      let unit : Option Nat :=
        match rest with
        | [] | ['s'] => some 1
        | ['m'] => some 60
        | ['h'] => some 3600
        | ['d'] => some 86400
        | _ => none
      match value, unit with
      | .finite false numerator denominator, some seconds =>
          some (min (numerator * seconds * 1000000000 / denominator) State.never)
      | .infinite false, some _ => some State.never
      | _, _ => none
  | none => none

/-- Wait for the sum of the arguments. -/
def sleep (state : State) (arguments : List String) : State :=
  withOptions ⟨[], []⟩ 1 state arguments fun options =>
    match options.operands with
    | [] => misuse state "missing operand" 1
    | words =>
        match (words.filter fun word => (lengthOfTime? word).isNone).reverse with
        | last :: others =>
            let complaint := fun word : String => "invalid time interval " ++ inQuotes word
            misuse (others.reverse.foldl (fun current word =>
              report current (complaint word) 1) state)
              (complaint last) 1
        | [] =>
            (state.spend ((words.filterMap lengthOfTime?).foldl (fun sum time => sum + time)
              0)).withStatus 0

/-! ### Expressions -/

/-- Why an expression has no value. -/
inductive ExpressionFault where
  | noOperand
  | noArgumentAfter (word : String)
  | unexpected (word : String)
  | expecting (word after : String)
  | noInteger
  | zeroDivisor
  | badPattern (text : String)
  deriving DecidableEq, Repr

def ExpressionFault.text : ExpressionFault → String
  | noOperand => "missing operand"
  | noArgumentAfter word => "syntax error: missing argument after " ++ inQuotes word
  | unexpected word => "syntax error: unexpected argument " ++ inQuotes word
  | expecting word after =>
      "syntax error: expecting " ++ inQuotes word ++ " after " ++ inQuotes after
  | noInteger => "non-integer argument"
  | zeroDivisor => "division by zero"
  | badPattern text => text

/-- The number that a text is, an optional minus sign and digits. -/
def integer? (text : String) : Option Int :=
  match text.toList with
  | '-' :: digits => (Text.Numeral.digits? digits).map fun value => -Int.ofNat value
  | digits => (Text.Numeral.digits? digits).map Int.ofNat

def isNothing (text : String) : Bool :=
  text.isEmpty || (integer? text) = some 0

/-- The matching part of a text: the first group, or how many characters match. -/
def matchOf (text pattern : String) : Except ExpressionFault String :=
  match Regular.read false pattern.toList with
  | .error fault => .error (.badPattern fault.text)
  | .ok regular =>
      let hasGroup := (pattern.splitOn "\\(").length ≠ 1
      match Regular.matchAt false regular ⟨none, text.toList, []⟩ with
      | none => .ok (if hasGroup then "" else "0")
      | some place =>
          if hasGroup then .ok (String.ofList ((place.groups.lookup 1).getD []))
          else .ok (Text.Numeral.decimal (text.length - place.rest.length))

/-- Apply an operator between two values. -/
def applyOperator (operator left right : String) : Except ExpressionFault String :=
  let truth := fun value : Bool => if value then "1" else "0"
  let compared := fun test : Ordering → Bool =>
    let order :=
      match integer? left, integer? right with
      | some first, some second => compare first second
      | _, _ => compare left right
    Except.ok (truth (test order))
  let calculated := fun operation : Int → Int → Except ExpressionFault Int =>
    match integer? left, integer? right with
    | some first, some second => (operation first second).map Text.Numeral.signedDecimal
    | _, _ => .error .noInteger
  match operator with
  | "|" => .ok (if isNothing left then (if isNothing right then "0" else right) else left)
  | "&" => .ok (if isNothing left || isNothing right then "0" else left)
  | "<" => compared fun order => order = .lt
  | "<=" => compared fun order => order ≠ .gt
  | "=" | "==" => compared fun order => order = .eq
  | "!=" => compared fun order => order ≠ .eq
  | ">=" => compared fun order => order ≠ .lt
  | ">" => compared fun order => order = .gt
  | "+" => calculated fun first second => .ok (first + second)
  | "-" => calculated fun first second => .ok (first - second)
  | "*" => calculated fun first second => .ok (first * second)
  | "/" => calculated fun first second =>
      if second = 0 then .error .zeroDivisor else .ok (first.tdiv second)
  | "%" => calculated fun first second =>
      if second = 0 then .error .zeroDivisor else .ok (first.tmod second)
  | _ => matchOf left right

/-- How tightly an operator binds. -/
def bindingOf : String → Option Nat
  | "|" => some 1
  | "&" => some 2
  | "<" | "<=" | "=" | "==" | "!=" | ">=" | ">" => some 3
  | "+" | "-" => some 4
  | "*" | "/" | "%" => some 5
  | ":" => some 6
  | _ => none

mutual

/-- Evaluate an operand behind a given word. -/
def expressionOperand : Nat → String → List String → Except ExpressionFault (String × List String)
  | 0, before, _ => .error (.noArgumentAfter before)
  | fuel + 1, before, words =>
      match words with
      | [] => .error (.noArgumentAfter before)
      | "+" :: word :: rest => .ok (word, rest)
      | "(" :: rest =>
          match expressionFrom fuel 1 "(" rest with
          | .error fault => .error fault
          | .ok (value, ")" :: others) => .ok (value, others)
          | .ok (value, _) => .error (.expecting ")" value)
      | "length" :: word :: rest => .ok (Text.Numeral.decimal word.utf8ByteSize, rest)
      | "index" :: text :: set :: rest =>
          let passed := text.toList.takeWhile fun character => !set.toList.contains character
          .ok (if passed.length = text.length then "0"
            else Text.Numeral.decimal (passed.length + 1), rest)
      | "substr" :: text :: start :: length :: rest =>
          match integer? start, integer? length with
          | some first, some count =>
              .ok (if first ≤ 0 then "" else
                String.ofList ((text.toList.drop (first.toNat - 1)).take count.toNat), rest)
          | _, _ => .ok ("", rest)
      | "match" :: text :: pattern :: rest => (matchOf text pattern).map fun value => (value, rest)
      | word :: rest => .ok (word, rest)

/-- Evaluate an expression whose operators bind at least as tightly as `least`. -/
def expressionFrom :
    Nat → Nat → String → List String → Except ExpressionFault (String × List String)
  | 0, _, before, _ => .error (.noArgumentAfter before)
  | fuel + 1, least, before, words =>
      match expressionOperand fuel before words with
      | .error fault => .error fault
      | .ok (value, rest) => expressionRest fuel least value rest

/-- Go on with the operators behind a value. -/
def expressionRest :
    Nat → Nat → String → List String → Except ExpressionFault (String × List String)
  | 0, _, left, words => .ok (left, words)
  | fuel + 1, least, left, words =>
      match words with
      | operator :: rest =>
          match bindingOf operator with
          | some level =>
              if level < least then .ok (left, words)
              else
                match expressionFrom fuel (level + 1) operator rest with
                | .error fault => .error fault
                | .ok (right, others) =>
                    match applyOperator operator left right with
                    | .error fault => .error fault
                    | .ok value => expressionRest fuel least value others
          | none => .ok (left, words)
      | [] => .ok (left, [])

end

/-- Evaluate an expression and write its value. -/
def expression (state : State) (arguments : List String) : State :=
  let words := if arguments.head? = some "--" then arguments.tail else arguments
  if words = [] then misuse state "missing operand" 2
  else
    match expressionFrom (8 * words.length + 8) 1 "" words with
    | .error fault => report state fault.text 2
    | .ok (_, extra :: _) => report state (ExpressionFault.unexpected extra).text 2
    | .ok (value, []) =>
        let written := emitText (state.withStatus 0) (value ++ "\n")
        if written.status ≠ 0 then written
        else written.withStatus (if isNothing value then 1 else 0)

end CaseHarness.Shell.Utility
