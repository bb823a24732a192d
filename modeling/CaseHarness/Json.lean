import CaseHarness.Text.Numeral

/-!
# JSON documents

The values that reports are made of and their two written forms: one without
any blanks, and one that puts every element on a line of its own, indented by
two blanks for each level.
-/

namespace CaseHarness

/-- A JSON value whose numbers are whole; the fields of an object keep their order. -/
inductive Json where
  | null
  | bool (value : Bool)
  | number (value : Int)
  | text (value : String)
  | list (items : List Json)
  | object (fields : List (String × Json))
  deriving Repr

namespace Json

def hexDigit (value : Nat) : Char :=
  (Nat.digitChar value)

/-- A character as it stands between the quotes of a written string. -/
def escape (character : Char) : List Char :=
  if character = '"' then ['\\', '"']
  else if character = '\\' then ['\\', '\\']
  else if character = '\x08' then ['\\', 'b']
  else if character = '\x0c' then ['\\', 'f']
  else if character = '\n' then ['\\', 'n']
  else if character = '\r' then ['\\', 'r']
  else if character = '\t' then ['\\', 't']
  else if character.toNat < 0x20 then
    ['\\', 'u', '0', '0', hexDigit (character.toNat / 16), hexDigit (character.toNat % 16)]
  else [character]

/-- The written form of a string. -/
def quote (value : String) : List Char :=
  '"' :: (value.toList.flatMap escape ++ ['"'])

/-- The marks between the parts of a written list or object. -/
structure Layout where
  /-- What stands before the first element, at the depth of the elements. -/
  opening : Nat → List Char
  /-- What stands between two elements. -/
  between : Nat → List Char
  /-- What stands after the last element, at the depth of the whole. -/
  closing : Nat → List Char
  /-- What stands between a key and its value. -/
  colon : List Char

/-- A new line at a given depth. -/
def newline (depth : Nat) : List Char :=
  '\n' :: List.replicate (2 * depth) ' '

/-- The layout without blanks. -/
def Layout.compact : Layout where
  opening := fun _ => []
  between := fun _ => [',']
  closing := fun _ => []
  colon := [':']

/-- The layout with one line for each element. -/
def Layout.indented : Layout where
  opening := newline
  between := fun depth => ',' :: newline depth
  closing := newline
  colon := [':', ' ']

mutual

/-- The written form of a value at a depth. -/
def write (layout : Layout) (depth : Nat) : Json → List Char
  | null => "null".toList
  | bool true => "true".toList
  | bool false => "false".toList
  | number value => (Text.Numeral.signedDecimal value).toList
  | text value => quote value
  | list [] => ['[', ']']
  | list (item :: items) =>
      '[' :: (layout.opening (depth + 1) ++ write layout (depth + 1) item ++
        writeItems layout (depth + 1) items ++ layout.closing depth ++ [']'])
  | object [] => ['\x7b', '\x7d']
  | object ((key, value) :: fields) =>
      '\x7b' :: (layout.opening (depth + 1) ++ quote key ++ layout.colon ++
        write layout (depth + 1) value ++ writeFields layout (depth + 1) fields ++
        layout.closing depth ++ ['\x7d'])

/-- The written form of the items after the first. -/
def writeItems (layout : Layout) (depth : Nat) : List Json → List Char
  | [] => []
  | item :: items =>
      layout.between depth ++ write layout depth item ++ writeItems layout depth items

/-- The written form of the fields after the first. -/
def writeFields (layout : Layout) (depth : Nat) : List (String × Json) → List Char
  | [] => []
  | (key, value) :: fields =>
      layout.between depth ++ quote key ++ layout.colon ++ write layout depth value ++
        writeFields layout depth fields

end

/-- The written form on one line. -/
def compact (value : Json) : String :=
  String.ofList (value.write .compact 0)

/-- The written form on many lines. -/
def pretty (value : Json) : String :=
  String.ofList (value.write .indented 0)

end Json

end CaseHarness
