/-!
# The grammar of TOML

A TOML document is a text that spells statements, one to a line: assignments to keys, and
headers that open tables and elements of arrays of tables.  Which text spells what is said here
by relations, apart from any reader.  A string stands for its content and an integer for its
number; floating-point numbers and moments are kept as they are spelled.
-/

namespace CaseHarness.Toml

/-- A key with the keys that a dotted key has in front of it. -/
structure Key where
  parents : List String
  name : String

/-- A value as it is written. -/
inductive Value where
  | text (content : String)
  | integer (number : Int)
  | float (spelling : String)
  | boolean (truth : Bool)
  | moment (spelling : String)
  | array (elements : List Value)
  | table (assignments : List (Key × Value))

inductive Statement where
  | assign (key : Key) (value : Value)
  /-- The header of a table. -/
  | table (key : Key)
  /-- The header of an element of an array of tables. -/
  | element (key : Key)

/-- A character that may stand in a comment, and in a string unless it has a meaning there. -/
def IsText (character : Char) : Prop :=
  character = '\t' ∨ (0x20 ≤ character.toNat ∧ character.toNat ≠ 0x7F)

def IsSpace (character : Char) : Prop :=
  character = ' ' ∨ character = '\t'

/-- A character of a key without quotes. -/
def IsBare (character : Char) : Prop :=
  character.isAlphanum = true ∨ character = '_' ∨ character = '-'

def Spaces (characters : List Char) : Prop :=
  ∀ character ∈ characters, IsSpace character

inductive LineEnd : List Char → Prop
  | newline : LineEnd ['\n']
  | carriage : LineEnd ['\r', '\n']

inductive Comment : List Char → Prop
  | nothing : Comment []
  | comment {text : List Char} (isText : ∀ character ∈ text, IsText character) :
      Comment ('#' :: text)

/-- What may stand behind a statement on its line. -/
inductive Trailing : List Char → Prop
  | mk {spaces comment : List Char} (blank : Spaces spaces) (said : Comment comment) :
      Trailing (spaces ++ comment)

/-- Blanks and line ends. -/
inductive Gap : List Char → Prop
  | nil : Gap []
  | space {character : Char} {rest : List Char} (blank : IsSpace character) (others : Gap rest) :
      Gap (character :: rest)
  | lineEnd {ending rest : List Char} (ends : LineEnd ending) (others : Gap rest) :
      Gap (ending ++ rest)

/-- What may stand between the items of an array or of a table in braces. -/
inductive Filler : List Char → Prop
  | nil : Filler []
  | space {character : Char} {rest : List Char} (blank : IsSpace character)
      (others : Filler rest) : Filler (character :: rest)
  | lineEnd {comment ending rest : List Char} (said : Comment comment) (ends : LineEnd ending)
      (others : Filler rest) : Filler (comment ++ ending ++ rest)

/-- A digit of a base up to sixteen, where letters may be small or capital. -/
def IsDigit (base digit : Nat) (character : Char) : Prop :=
  digit < base ∧ (character = Nat.digitChar digit ∨ character = (Nat.digitChar digit).toUpper)

/-- A number as digits of a base, with underscores between digits. -/
inductive Digits (base : Nat) : Nat → List Char → Prop
  | first {digit : Nat} {character : Char} (isDigit : IsDigit base digit character) :
      Digits base digit [character]
  | next {number digit : Nat} {text : List Char} {character : Char}
      (digits : Digits base number text) (isDigit : IsDigit base digit character) :
      Digits base (number * base + digit) (text ++ [character])
  | nextGroup {number digit : Nat} {text : List Char} {character : Char}
      (digits : Digits base number text) (isDigit : IsDigit base digit character) :
      Digits base (number * base + digit) (text ++ ['_', character])

/-- A number as exactly so many digits. -/
structure FixedDigits (base width number : Nat) (text : List Char) : Prop where
  digits : Digits base number text
  ungrouped : '_' ∉ text
  length : text.length = width

/-- A decimal number without needless zeros in front. -/
structure Decimal (number : Nat) (text : List Char) : Prop where
  digits : Digits 10 number text
  noZero : text.head? = some '0' → text = ['0']

inductive Sign : Int → List Char → Prop
  | none : Sign 1 []
  | plus : Sign 1 ['+']
  | minus : Sign (-1) ['-']

inductive Integer : Int → List Char → Prop
  | decimal {factor : Int} {number : Nat} {sign text : List Char} (signed : Sign factor sign)
      (decimal : Decimal number text) : Integer (factor * number) (sign ++ text)
  | hexadecimal {number : Nat} {text : List Char} (digits : Digits 16 number text) :
      Integer number ('0' :: 'x' :: text)
  | octal {number : Nat} {text : List Char} (digits : Digits 8 number text) :
      Integer number ('0' :: 'o' :: text)
  | binary {number : Nat} {text : List Char} (digits : Digits 2 number text) :
      Integer number ('0' :: 'b' :: text)

inductive Fraction : List Char → Prop
  | mk {number : Nat} {text : List Char} (digits : Digits 10 number text) :
      Fraction ('.' :: text)

inductive Exponent : List Char → Prop
  | mk {factor : Int} {number : Nat} {letter : Char} {sign text : List Char}
      (isLetter : letter = 'e' ∨ letter = 'E') (signed : Sign factor sign)
      (digits : Digits 10 number text) : Exponent (letter :: (sign ++ text))

/-- A number with a fraction or an exponent or both, infinity, or what is not a number. -/
inductive FloatingPoint : List Char → Prop
  | fraction {factor : Int} {number : Nat} {sign text fraction : List Char}
      (signed : Sign factor sign) (decimal : Decimal number text)
      (fractional : Fraction fraction) : FloatingPoint (sign ++ (text ++ fraction))
  | exponent {factor : Int} {number : Nat} {sign text exponent : List Char}
      (signed : Sign factor sign) (decimal : Decimal number text)
      (scaled : Exponent exponent) : FloatingPoint (sign ++ (text ++ exponent))
  | both {factor : Int} {number : Nat} {sign text fraction exponent : List Char}
      (signed : Sign factor sign) (decimal : Decimal number text)
      (fractional : Fraction fraction) (scaled : Exponent exponent) :
      FloatingPoint (sign ++ (text ++ (fraction ++ exponent)))
  | special {factor : Int} {sign text : List Char} (signed : Sign factor sign)
      (known : text ∈ ["inf".toList, "nan".toList]) : FloatingPoint (sign ++ text)

def daysIn (year month : Nat) : Nat :=
  if month = 2 then
    if year % 4 = 0 ∧ (year % 100 ≠ 0 ∨ year % 400 = 0) then 29 else 28
  else if month ∈ [4, 6, 9, 11] then 30
  else 31

inductive Date : List Char → Prop
  | mk {year month day : Nat} {years months days : List Char}
      (yearly : FixedDigits 10 4 year years) (monthly : FixedDigits 10 2 month months)
      (daily : FixedDigits 10 2 day days) (inYear : 1 ≤ month ∧ month ≤ 12)
      (inMonth : 1 ≤ day ∧ day ≤ daysIn year month) :
      Date (years ++ '-' :: (months ++ '-' :: days))

inductive HourMinute : List Char → Prop
  | mk {hour minute : Nat} {hours minutes : List Char} (hourly : FixedDigits 10 2 hour hours)
      (minutely : FixedDigits 10 2 minute minutes) (inDay : hour ≤ 23) (inHour : minute ≤ 59) :
      HourMinute (hours ++ ':' :: minutes)

/-- Seconds, which a leap second makes one more, and perhaps a part of a second. -/
inductive Second : List Char → Prop
  | whole {second : Nat} {text : List Char} (secondly : FixedDigits 10 2 second text)
      (inMinute : second ≤ 60) : Second text
  | parted {second width part : Nat} {text parts : List Char}
      (secondly : FixedDigits 10 2 second text) (inMinute : second ≤ 60)
      (partly : FixedDigits 10 width part parts) : Second (text ++ '.' :: parts)

inductive Time : List Char → Prop
  | short {text : List Char} (begun : HourMinute text) : Time text
  | long {text seconds : List Char} (begun : HourMinute text) (secondly : Second seconds) :
      Time (text ++ ':' :: seconds)

inductive Offset : List Char → Prop
  | none : Offset []
  | zero {letter : Char} (isLetter : letter = 'Z' ∨ letter = 'z') : Offset [letter]
  | shift {mark : Char} {text : List Char} (isMark : mark = '+' ∨ mark = '-')
      (shifted : HourMinute text) : Offset (mark :: text)

/-- A date, a time, or both, and then perhaps with an offset. -/
inductive Moment : List Char → Prop
  | date {text : List Char} (dated : Date text) : Moment text
  | time {text : List Char} (timed : Time text) : Moment text
  | both {mark : Char} {date time offset : List Char} (dated : Date date)
      (isMark : mark = 'T' ∨ mark = 't' ∨ mark = ' ') (timed : Time time)
      (shifted : Offset offset) : Moment (date ++ mark :: (time ++ offset))

/-- How a string is quoted: with or without escapes, on one line or on many. -/
structure Quoting where
  escapes : Bool
  manyLines : Bool

/-- Double quotes allow escapes, single quotes do not. -/
def Quoting.mark (quoting : Quoting) : Char :=
  if quoting.escapes then '"' else '\x27'

/-- What stands around a string: the mark, or three marks if it has many lines. -/
def Quoting.delimiter (quoting : Quoting) : List Char :=
  if quoting.manyLines then [quoting.mark, quoting.mark, quoting.mark] else [quoting.mark]

/-- What stands behind a backslash, and the character that is meant. -/
inductive Escape : Char → List Char → Prop
  | letter {character mark : Char}
      (known : (mark, character) ∈ [('b', '\x08'), ('t', '\t'), ('n', '\n'), ('f', '\x0c'),
        ('r', '\r'), ('e', '\x1b'), ('"', '"'), ('\\', '\\')]) : Escape character [mark]
  | code {mark : Char} {width number : Nat} {digits : List Char}
      (known : (mark, width) ∈ [('x', 2), ('u', 4), ('U', 8)])
      (coded : FixedDigits 16 width number digits) (scalar : number.isValidChar) :
      Escape (Char.ofNat number) (mark :: digits)

/-- A text that begins neither with a blank nor with a line end. -/
structure Solid (text : List Char) : Prop where
  noSpace : ∀ character, text.head? = some character → ¬ IsSpace character
  noLineEnd : ∀ ending, LineEnd ending → ¬ ending <+: text

/-- What stands between the delimiters of a string, and what it means.  In a string of many
lines a backslash at the end of a line passes over all blanks and line ends that follow, and
marks may stand alone or by twos. -/
inductive Body (quoting : Quoting) : List Char → List Char → Prop
  | nil : Body quoting [] []
  | plain {character : Char} {content text : List Char} (isText : IsText character)
      (noMark : character ≠ quoting.mark)
      (noEscape : quoting.escapes = true → character ≠ '\\') (rest : Body quoting content text) :
      Body quoting (character :: content) (character :: text)
  | escape {character : Char} {content text escape : List Char}
      (escapes : quoting.escapes = true) (escaped : Escape character escape)
      (rest : Body quoting content text) :
      Body quoting (character :: content) ('\\' :: (escape ++ text))
  | mark {content text : List Char} (manyLines : quoting.manyLines = true)
      (few : ¬ [quoting.mark, quoting.mark] <+: text) (rest : Body quoting content text) :
      Body quoting (quoting.mark :: content) (quoting.mark :: text)
  | lineEnd {content text ending : List Char} (manyLines : quoting.manyLines = true)
      (ends : LineEnd ending) (rest : Body quoting content text) :
      Body quoting (ending ++ content) (ending ++ text)
  | continued {content text spaces ending gap : List Char} (manyLines : quoting.manyLines = true)
      (escapes : quoting.escapes = true) (blank : Spaces spaces) (ends : LineEnd ending)
      (passed : Gap gap) (solid : Solid text) (rest : Body quoting content text) :
      Body quoting content ('\\' :: (spaces ++ ending ++ gap ++ text))

/-- A string and its content.  A line end right behind the opening delimiter of a string of many
lines is no part of it. -/
inductive Quoted (quoting : Quoting) (content : List Char) : List Char → Prop
  | plain {text : List Char} (body : Body quoting content text)
      (noLineEnd : quoting.manyLines = true → ∀ ending, LineEnd ending → ¬ ending <+: text) :
      Quoted quoting content (quoting.delimiter ++ (text ++ quoting.delimiter))
  | below {text ending : List Char} (manyLines : quoting.manyLines = true)
      (ends : LineEnd ending) (body : Body quoting content text) :
      Quoted quoting content (quoting.delimiter ++ (ending ++ (text ++ quoting.delimiter)))

/-- One name of a key, bare or quoted on one line. -/
inductive SpellsName : String → List Char → Prop
  | bare {text : List Char} (nonempty : text ≠ []) (bare : ∀ character ∈ text, IsBare character) :
      SpellsName (String.ofList text) text
  | quoted {quoting : Quoting} {content text : List Char} (oneLine : quoting.manyLines = false)
      (quoted : Quoted quoting content text) : SpellsName (String.ofList content) text

/-- A key, whose names are divided by dots. -/
inductive SpellsKey : Key → List Char → Prop
  | name {name : String} {text : List Char} (spelled : SpellsName name text) :
      SpellsKey ⟨[], name⟩ text
  | dotted {parent name : String} {parents : List String} {text before after rest : List Char}
      (spelled : SpellsName parent text) (blankBefore : Spaces before)
      (blankAfter : Spaces after) (others : SpellsKey ⟨parents, name⟩ rest) :
      SpellsKey ⟨parent :: parents, name⟩ (text ++ (before ++ '.' :: (after ++ rest)))

mutual

inductive Spells : Value → List Char → Prop
  | text {quoting : Quoting} {content text : List Char} (quoted : Quoted quoting content text) :
      Spells (.text (String.ofList content)) text
  | integer {number : Int} {text : List Char} (integral : Integer number text) :
      Spells (.integer number) text
  | float {text : List Char} (floating : FloatingPoint text) :
      Spells (.float (String.ofList text)) text
  | yes : Spells (.boolean true) "true".toList
  | no : Spells (.boolean false) "false".toList
  | moment {text : List Char} (momentary : Moment text) :
      Spells (.moment (String.ofList text)) text
  | array {elements : List Value} {text : List Char} (items : SpellsElements elements text) :
      Spells (.array elements) ('[' :: (text ++ [']']))
  | table {assignments : List (Key × Value)} {text : List Char}
      (items : SpellsAssignments assignments text) :
      Spells (.table assignments) ('\x7b' :: (text ++ ['\x7d']))

inductive SpellsElements : List Value → List Char → Prop
  | nothing {filler : List Char} (fills : Filler filler) : SpellsElements [] filler
  | last {value : Value} {text before after : List Char} (fillsBefore : Filler before)
      (spelled : Spells value text) (fillsAfter : Filler after) :
      SpellsElements [value] (before ++ text ++ after)
  | next {value : Value} {elements : List Value} {text before after rest : List Char}
      (fillsBefore : Filler before) (spelled : Spells value text) (fillsAfter : Filler after)
      (others : SpellsElements elements rest) :
      SpellsElements (value :: elements) (before ++ text ++ after ++ ',' :: rest)

inductive SpellsAssignment : Key → Value → List Char → Prop
  | mk {key : Key} {value : Value} {keyText before after text : List Char}
      (keyed : SpellsKey key keyText) (blankBefore : Spaces before) (blankAfter : Spaces after)
      (spelled : Spells value text) :
      SpellsAssignment key value (keyText ++ (before ++ '=' :: (after ++ text)))

inductive SpellsAssignments : List (Key × Value) → List Char → Prop
  | nothing {filler : List Char} (fills : Filler filler) : SpellsAssignments [] filler
  | last {key : Key} {value : Value} {text before after : List Char}
      (fillsBefore : Filler before) (spelled : SpellsAssignment key value text)
      (fillsAfter : Filler after) : SpellsAssignments [(key, value)] (before ++ text ++ after)
  | next {key : Key} {value : Value} {assignments : List (Key × Value)}
      {text before after rest : List Char} (fillsBefore : Filler before)
      (spelled : SpellsAssignment key value text) (fillsAfter : Filler after)
      (others : SpellsAssignments assignments rest) :
      SpellsAssignments ((key, value) :: assignments) (before ++ text ++ after ++ ',' :: rest)

end

/-- A line with at most one statement.  A string or an array may hold line ends of its own. -/
inductive SpellsLine : Option Statement → List Char → Prop
  | blank {trailing : List Char} (trails : Trailing trailing) : SpellsLine none trailing
  | assign {key : Key} {value : Value} {spaces text trailing : List Char}
      (indented : Spaces spaces) (spelled : SpellsAssignment key value text)
      (trails : Trailing trailing) :
      SpellsLine (some (.assign key value)) (spaces ++ (text ++ trailing))
  | table {key : Key} {spaces before text after trailing : List Char} (indented : Spaces spaces)
      (blankBefore : Spaces before) (keyed : SpellsKey key text) (blankAfter : Spaces after)
      (trails : Trailing trailing) :
      SpellsLine (some (.table key))
        (spaces ++ '[' :: (before ++ (text ++ (after ++ ']' :: trailing))))
  | element {key : Key} {spaces before text after trailing : List Char}
      (indented : Spaces spaces) (blankBefore : Spaces before) (keyed : SpellsKey key text)
      (blankAfter : Spaces after) (trails : Trailing trailing) :
      SpellsLine (some (.element key))
        (spaces ++ '[' :: '[' :: (before ++ (text ++ (after ++ ']' :: ']' :: trailing))))

inductive SpellsLines : List Statement → List Char → Prop
  | last {statement : Option Statement} {text : List Char} (line : SpellsLine statement text) :
      SpellsLines statement.toList text
  | next {statement : Option Statement} {statements : List Statement}
      {text ending rest : List Char} (line : SpellsLine statement text) (ends : LineEnd ending)
      (others : SpellsLines statements rest) :
      SpellsLines (statement.toList ++ statements) (text ++ (ending ++ rest))

/-- A byte-order mark in front of a document is no part of its text. -/
def textOf (document : String) : List Char :=
  match document.toList with
  | '\uFEFF' :: text => text
  | text => text

def SpellsDocument (statements : List Statement) (document : String) : Prop :=
  SpellsLines statements (textOf document)

end CaseHarness.Toml
