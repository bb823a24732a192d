import CaseHarness.Shell.Grammar.Cursor

/-!
# Arithmetic of the shell

Expressions over signed numbers of 64 bits, with variables, assignments and the
usual precedence.  An expression is cut into tokens and evaluated from left to
right; what the value does not depend on is read without being carried out.
-/

namespace CaseHarness.Shell.Arithmetic

/-- A token of an expression. -/
inductive Token where
  | number (value : Int)
  | name (name : String)
  | sign (sign : String)
  /-- A character that begins no token. -/
  | strange
  deriving DecidableEq, Repr

/-- Why an expression has no value. -/
inductive Fault where
  | noPrimary
  | noEnd
  | noClosing
  | noColon
  | zeroDivisor
  | illegalNumber (text : String)
  deriving DecidableEq, Repr

def Fault.text (expression : String) : Fault → String
  | noPrimary => "arithmetic expression: expecting primary: \"" ++ expression ++ "\""
  | noEnd => "arithmetic expression: expecting EOF: \"" ++ expression ++ "\""
  | noClosing => "arithmetic expression: expecting ')': \"" ++ expression ++ "\""
  | noColon => "arithmetic expression: expecting ':': \"" ++ expression ++ "\""
  | zeroDivisor => "arithmetic expression: division by zero: \"" ++ expression ++ "\""
  | illegalNumber text => "Illegal number: " ++ text

/-- The variables of an expression, the latest assignment first. -/
abbrev Variables :=
  List (String × String)

/-- Wrap a number around to 64 signed bits. -/
def wrap (value : Int) : Int :=
  Int.bmod value (Nat.pow 2 64)

def digitsIn (base : Nat) (characters : List Char) : Option Nat :=
  characters.foldl
    (fun value character =>
      match value, Text.Numeral.digitIn? base character with
      | some known, some digit => some (known * base + digit)
      | _, _ => none)
    (some 0)

/-- The number that some characters begin with, in decimal, octal or hexadecimal digits, and how
many characters it takes; a number that is too great is the greatest one. -/
def leadingNumber (characters : List Char) : Int × Nat :=
  let counted := fun (base skipped : Nat) =>
    let digits := (characters.drop skipped).takeWhile fun digit =>
      (Text.Numeral.digitIn? base digit).isSome
    (Int.ofNat (min ((digitsIn base digits).getD 0) (Nat.pow 2 63 - 1)), skipped + digits.length)
  match characters with
  | '0' :: mark :: digit :: _ =>
      if (mark = 'x' ∨ mark = 'X') ∧ (Text.Numeral.digitIn? 16 digit).isSome then counted 16 2
      else counted 8 0
  | '0' :: _ => counted 8 0
  | _ => counted 10 0

/-- The signs, longer ones first. -/
def signs : List String :=
  ["<<=", ">>=", "&&", "||", "==", "!=", "<=", ">=", "<<", ">>", "+=", "-=", "*=", "/=", "%=",
    "&=", "|=", "^=", "+", "-", "*", "/", "%", "<", ">", "&", "|", "^", "!", "~", "(", ")", "?",
    ":", "="]

/-- Cut an expression into tokens, up to a character that begins none. -/
def tokens : Nat → List Char → List Token
  | 0, _ => []
  | _ + 1, [] => []
  | fuel + 1, character :: rest =>
      if [' ', '\t', '\n'].contains character then tokens fuel rest
      else if character.isDigit then
        let (value, length) := leadingNumber (character :: rest)
        .number value :: tokens fuel ((character :: rest).drop length)
      else if Grammar.startsName character then
        let written := character :: rest.takeWhile Grammar.continuesName
        .name (String.ofList written) :: tokens fuel (rest.dropWhile Grammar.continuesName)
      else
        match signs.find? fun sign => sign.toList.isPrefixOf (character :: rest) with
        | some sign => .sign sign :: tokens fuel ((character :: rest).drop sign.length)
        | none => [.strange]

/-- How tightly a sign between two operands binds. -/
def strength : String → Option Nat
  | "||" => some 1
  | "&&" => some 2
  | "|" => some 3
  | "^" => some 4
  | "&" => some 5
  | "==" | "!=" => some 6
  | "<" | ">" | "<=" | ">=" => some 7
  | "<<" | ">>" => some 8
  | "+" | "-" => some 9
  | "*" | "/" | "%" => some 10
  | _ => none

/-- The number that stands for a truth value. -/
def truth (value : Bool) : Int :=
  if value then 1 else 0

/-- The bits of a number, as an unsigned one of 64 bits. -/
def bits (value : Int) : UInt64 :=
  UInt64.ofInt value

/-- Apply a sign to two operands; there is no quotient by zero. -/
def apply (sign : String) (left right : Int) : Except Fault Int :=
  let places := (right % 64).toNat
  match sign with
  | "|" => .ok (wrap (bits left ||| bits right).toNat)
  | "^" => .ok (wrap (bits left ^^^ bits right).toNat)
  | "&" => .ok (wrap (bits left &&& bits right).toNat)
  | "==" => .ok (truth (left = right))
  | "!=" => .ok (truth (left ≠ right))
  | "<" => .ok (truth (left < right))
  | ">" => .ok (truth (right < left))
  | "<=" => .ok (truth (left ≤ right))
  | ">=" => .ok (truth (right ≤ left))
  | "<<" => .ok (wrap (left * Nat.pow 2 places))
  | ">>" => .ok (left.fdiv (Nat.pow 2 places))
  | "+" => .ok (wrap (left + right))
  | "-" => .ok (wrap (left - right))
  | "*" => .ok (wrap (left * right))
  | "/" => if right = 0 then .error .zeroDivisor else .ok (wrap (left.tdiv right))
  | "%" => if right = 0 then .error .zeroDivisor else .ok (left.tmod right)
  | _ => .error .noPrimary

/-- The value of a variable; one that is missing or empty counts as zero. -/
def valueOf (bindings : Variables) (name : String) : Except Fault Int :=
  match bindings.lookup name with
  | none | some "" => .ok 0
  | some text =>
      let isBlank := fun character : Char =>
        character = ' ' || ('\t' ≤ character && character ≤ '\r')
      let begun := text.toList.dropWhile isBlank
      let (negative, digits) :=
        match begun with
        | '-' :: rest => (true, rest)
        | '+' :: rest => (false, rest)
        | rest => (false, rest)
      let (value, length) := leadingNumber digits
      if length = 0 ∨ !((digits.drop length).all isBlank) then .error (.illegalNumber text)
      else .ok (wrap (if negative then -value else value))

/-- The sign that an assignment applies before it assigns. -/
def assignmentSign : String → Option (Option String)
  | "=" => some none
  | "+=" => some (some "+")
  | "-=" => some (some "-")
  | "*=" => some (some "*")
  | "/=" => some (some "/")
  | "%=" => some (some "%")
  | "<<=" => some (some "<<")
  | ">>=" => some (some ">>")
  | "&=" => some (some "&")
  | "|=" => some (some "|")
  | "^=" => some (some "^")
  | _ => none

/-- A value, the tokens that follow, and the variables afterwards. -/
abbrev Result :=
  Except Fault (Int × List Token × Variables)

mutual

/-- Evaluate an operand; unless `live` is set, its value does not matter and nothing is assigned. -/
def operand : Nat → Bool → Variables → List Token → Result
  | 0, _, _, _ => .error .noPrimary
  | fuel + 1, live, bindings, given =>
      let changed := fun (change : Int → Int) (rest : List Token) =>
        match operand fuel live bindings rest with
        | .error fault => .error fault
        | .ok (value, after, known) => .ok (change value, after, known)
      match given with
      | .number value :: rest => .ok (wrap value, rest, bindings)
      | .name name :: rest => (if live then valueOf bindings name else .ok 0).map fun value =>
          (value, rest, bindings)
      | .sign "(" :: rest =>
          match assignment fuel live bindings rest with
          | .error fault => .error fault
          | .ok (value, .sign ")" :: others, known) => .ok (value, others, known)
          | .ok _ => .error .noClosing
      | .sign "-" :: rest => changed (fun value => wrap (-value)) rest
      | .sign "+" :: rest => changed id rest
      | .sign "!" :: rest => changed (fun value => truth (value = 0)) rest
      | .sign "~" :: rest => changed (fun value => -value - 1) rest
      | _ => .error .noPrimary

/-- Evaluate an expression whose signs bind at least as tightly as `least`. -/
def binary : Nat → Bool → Nat → Variables → List Token → Result
  | 0, _, _, _, _ => .error .noPrimary
  | fuel + 1, live, least, bindings, given =>
      match operand fuel live bindings given with
      | .error fault => .error fault
      | .ok (value, after, known) => continued fuel live least value known after

/-- Go on with the signs after an operand. -/
def continued : Nat → Bool → Nat → Int → Variables → List Token → Result
  | 0, _, _, _, _, _ => .error .noPrimary
  | fuel + 1, live, least, left, bindings, given =>
      match given with
      | .sign sign :: rest =>
          match strength sign with
          | some level =>
              if level < least then .ok (left, given, bindings)
              else
                let needed :=
                  live && (sign ≠ "||" || left = 0) && (sign ≠ "&&" || left ≠ 0)
                match binary fuel needed (level + 1) bindings rest with
                | .error fault => .error fault
                | .ok (right, after, known) =>
                    let result : Except Fault Int :=
                      if sign = "||" then .ok (truth (left ≠ 0 || right ≠ 0))
                      else if sign = "&&" then .ok (truth (left ≠ 0 && right ≠ 0))
                      else if live then apply sign left right
                      else .ok 0
                    match result with
                    | .error fault => .error fault
                    | .ok value => continued fuel live least value known after
          | none => .ok (left, given, bindings)
      | _ => .ok (left, given, bindings)

/-- Evaluate an expression with a choice between two others. -/
def choice : Nat → Bool → Variables → List Token → Result
  | 0, _, _, _ => .error .noPrimary
  | fuel + 1, live, bindings, given =>
      match binary fuel live 1 bindings given with
      | .error fault => .error fault
      | .ok (value, .sign "?" :: rest, known) =>
          match assignment fuel (live && value ≠ 0) known rest with
          | .error fault => .error fault
          | .ok (yes, .sign ":" :: others, knownYes) =>
              match choice fuel (live && value = 0) knownYes others with
              | .error fault => .error fault
              | .ok (no, after, knownNo) => .ok (if value ≠ 0 then yes else no, after, knownNo)
          | .ok _ => .error .noColon
      | .ok found => .ok found

/-- Evaluate an expression that may be an assignment. -/
def assignment : Nat → Bool → Variables → List Token → Result
  | 0, _, _, _ => .error .noPrimary
  | fuel + 1, live, bindings, given =>
      match given with
      | .name name :: .sign sign :: rest =>
          match assignmentSign sign with
          | none => choice fuel live bindings given
          | some operation =>
              match assignment fuel live bindings rest with
              | .error fault => .error fault
              | .ok (value, after, known) =>
                  if !live then .ok (value, after, known)
                  else
                    let result : Except Fault Int :=
                      match operation with
                      | none => .ok value
                      | some applied =>
                          match valueOf known name with
                          | .error fault => .error fault
                          | .ok current => apply applied current value
                    result.map fun final =>
                      (final, after, (name, Text.Numeral.signedDecimal final) :: known)
      | _ => choice fuel live bindings given

end

/-- Evaluate a whole expression; the result has the variables that were assigned with their
values, the earliest first. -/
def evaluate (bindings : Variables) (text : List Char) : Except Fault (Int × Variables) :=
  let given := tokens (text.length + 1) text
  match assignment (16 * given.length + 16) true bindings given with
  | .ok (value, [], known) => .ok (value, (known.take (known.length - bindings.length)).reverse)
  | .ok _ => .error .noEnd
  | .error fault => .error fault

end CaseHarness.Shell.Arithmetic
