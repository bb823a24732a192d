import CaseHarness.Text.Utf8

/-!
# Patterns of the shell

A pattern is a text in which stars, question marks and bracketed sets stand for
other characters unless they are quoted.
A backslash protects the character behind it.

The shell knows bytes only: a pattern and a text are compared unit by unit, and
a character outside of ASCII is as many units as its encoding has bytes.
-/

namespace CaseHarness.Shell

/-- A character together with whether it was quoted. -/
abbrev Marked :=
  Char × Bool

/-- One element of a pattern. -/
inductive Element where
  /-- Any text. -/
  | anything
  /-- Any one character. -/
  | anyOne
  /-- One character in, or with `negated` outside, some inclusive ranges and named classes. -/
  | oneOf (negated : Bool) (ranges : List (Char × Char)) (classes : List String)
  /-- This character. -/
  | exactly (character : Char)
  deriving DecidableEq, Repr

/-- Whether a character belongs to a named class; only ASCII characters belong to any. -/
def inClass (name : String) (character : Char) : Bool :=
  let isPunctuation := '!' ≤ character && character ≤ '~' && !character.isAlphanum
  match name with
  | "alpha" => character.isAlpha
  | "digit" => character.isDigit
  | "alnum" => character.isAlphanum
  | "upper" => character.isUpper
  | "lower" => character.isLower
  | "space" => character = ' ' || ('\t' ≤ character && character ≤ '\r')
  | "blank" => character = ' ' || character = '\t'
  | "punct" => isPunctuation
  | "graph" => isPunctuation || character.isAlphanum
  | "print" => character = ' ' || isPunctuation || character.isAlphanum
  | "cntrl" => character < ' ' || character = '\x7f'
  | "xdigit" => character.isDigit || ('a' ≤ character.toLower && character.toLower ≤ 'f')
  | _ => false

namespace Element

/-- The name of a class behind its opening mark, and what follows its closing mark. -/
def className? (characters : List Marked) : Option (String × List Marked) :=
  let name := characters.takeWhile fun entry => entry.1.isLower
  match characters.drop name.length with
  | (':', _) :: (']', _) :: rest => some (String.ofList (name.map Prod.fst), rest)
  | _ => none

/-- Read the members of a set up to its closing bracket; the first one may be that bracket. -/
def members? (ranges : List (Char × Char)) (classes : List String) (first : Bool) :
    Nat → List Marked → Option (List (Char × Char) × List String × List Marked)
  | 0, _ => none
  | _ + 1, [] => none
  | fuel + 1, (character, isQuoted) :: rest =>
      if character = ']' ∧ isQuoted = false ∧ first = false then some (ranges, classes, rest)
      else
        match character, rest with
        | '[', (':', _) :: others =>
            match className? others with
            | some (name, following) => members? ranges (name :: classes) false fuel following
            | none => members? (('[', '[') :: ranges) classes false fuel rest
        | low, ('-', false) :: (high, highQuoted) :: others =>
            if high = ']' ∧ highQuoted = false then
              members? ((low, low) :: ranges) classes false fuel rest
            else members? ((low, high) :: ranges) classes false fuel others
        | only, _ => members? ((only, only) :: ranges) classes false fuel rest

def read : Nat → List Marked → List Element
  | 0, _ => []
  | _ + 1, [] => []
  | fuel + 1, (character, isQuoted) :: rest =>
      if isQuoted then .exactly character :: read fuel rest
      else
        match character with
        | '*' => .anything :: read fuel rest
        | '?' => .anyOne :: read fuel rest
        | '\\' =>
            match rest with
            | (following, _) :: others => .exactly following :: read fuel others
            | [] => [.exactly '\\']
        | '[' =>
            let (negated, inside) :=
              match rest with
              | ('!', false) :: others => (true, others)
              | others => (false, others)
            match members? [] [] true (inside.length + 1) inside with
            | some (ranges, classes, others) =>
                .oneOf negated ranges.reverse classes.reverse :: read fuel others
            | none => .exactly '[' :: read fuel rest
        | other => .exactly other :: read fuel rest

/-- Whether some end of a text satisfies a test. -/
def anyEnd (test : List Char → Bool) : List Char → Bool
  | [] => test []
  | character :: rest => test (character :: rest) || anyEnd test rest

/-- Whether a pattern describes a whole text. -/
def describes : List Element → List Char → Bool
  | [], characters => characters.isEmpty
  | anything :: elements, characters => anyEnd (describes elements) characters
  | anyOne :: elements, characters =>
      match characters with
      | [] => false
      | _ :: rest => describes elements rest
  | oneOf negated ranges classes :: elements, characters =>
      match characters with
      | [] => false
      | character :: rest =>
          (ranges.any (fun range => range.1 ≤ character && character ≤ range.2) ||
            classes.any fun name => inClass name character) != negated && describes elements rest
  | exactly wanted :: elements, characters =>
      match characters with
      | [] => false
      | character :: rest => wanted = character && describes elements rest

end Element

/-- The bytes of a text, each as the character of its number. -/
def unitsOf (characters : List Char) : List Char :=
  (Text.Utf8.encode (String.ofList characters)).map fun byte => Char.ofNat byte.toNat

/-- The text that units encode. -/
def ofUnits (units : List Char) : List Char :=
  (Text.Utf8.decode (units.map fun unit => UInt8.ofNat unit.toNat)).toList

/-- The elements of a marked text, taken as a pattern of units. -/
def elementsOf (pattern : List Marked) : List Element :=
  let units := pattern.flatMap fun (character, isQuoted) =>
    (unitsOf [character]).map fun unit => (unit, isQuoted)
  Element.read (units.length + 1) units

/-- Whether a marked text, taken as a pattern, describes a whole text. -/
def matchesPattern (pattern : List Marked) (characters : List Char) : Bool :=
  Element.describes (elementsOf pattern) (unitsOf characters)

/-- Whether a marked text has an element that stands for other characters. -/
def hasWildcard (pattern : List Marked) : Bool :=
  (elementsOf pattern).any fun
    | .exactly _ => false
    | _ => true

/-- The characters before a null character, which separates values that are put together. -/
def untilNull (characters : List Char) : List Char :=
  characters.takeWhile fun character => character ≠ '\x00'

/-- Remove the shortest or longest beginning whose first value a pattern describes. -/
def dropFront (longest : Bool) (pattern : List Marked) (characters : List Char) : List Char :=
  let elements := elementsOf pattern
  let units := unitsOf characters
  let cuts := (List.range (units.length + 1)).filter fun count =>
    Element.describes elements (untilNull (units.take count))
  match if longest then cuts.getLast? else cuts.head? with
  | some count => ofUnits (units.drop count)
  | none => characters

/-- Remove the shortest or longest end whose first value a pattern describes.  The longest one
begins in the first value. -/
def dropBack (longest : Bool) (pattern : List Marked) (characters : List Char) : List Char :=
  let elements := elementsOf pattern
  let units := unitsOf characters
  let places := if longest then (untilNull units).length + 1 else units.length + 1
  let cuts := (List.range places).filter fun count =>
    Element.describes elements (untilNull (units.drop count))
  match if longest then cuts.head? else cuts.getLast? with
  | some count => ofUnits (units.take count)
  | none => characters

end CaseHarness.Shell
