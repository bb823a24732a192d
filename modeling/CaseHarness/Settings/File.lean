import CaseHarness.Settings
import CaseHarness.Text.Numeral

/-!
# Settings files

A settings file is a TOML document whose top-level keys are `language`,
`timeout_secs` and `report`: two strings and an unsigned number of 64 bits.
Each key may be missing and stands at most once.

Every other construct of TOML (a table, a dotted key, an array, a float, a date,
a truth value) can only give an unknown key or a value of a wrong kind, so
reading stops there with the same refusal.  What is left is a list of entries,
one after another, with blanks, blank lines and comments between them.
-/

namespace CaseHarness.Settings.File

/-- A value of a setting. -/
inductive Value where
  | text (value : String)
  | integer (value : Int)
  deriving DecidableEq, Repr

/-- A key and its value. -/
structure Entry where
  key : String
  value : Value
  deriving DecidableEq, Repr

/-- A blank within a line. -/
def isSpace (character : Char) : Bool :=
  character = ' ' || character = '\t'

/-- A character that may stand in a comment or, unless it is a mark there, in a string. -/
def isPlain (character : Char) : Bool :=
  character = '\t' || (0x20 ≤ character.toNat && character.toNat ≠ 0x7F)

/-- A character of a key without quotes. -/
def isBareKey (character : Char) : Bool :=
  character.isAlphanum || character = '_' || character = '-'

/-- Continue a number; an underscore stands only between two digits. -/
def groupedFrom (base value : Nat) : List Char → Option Nat
  | [] => some value
  | '_' :: character :: rest =>
      match Text.Numeral.digitIn? base character with
      | some digit => groupedFrom base (value * base + digit) rest
      | none => none
  | character :: rest =>
      match Text.Numeral.digitIn? base character with
      | some digit => groupedFrom base (value * base + digit) rest
      | none => none

/-- A number of at least one digit, with underscores between digits. -/
def grouped? (base : Nat) : List Char → Option Nat
  | [] => none
  | character :: rest =>
      match Text.Numeral.digitIn? base character with
      | some digit => groupedFrom base digit rest
      | none => none

/-- A decimal number, which begins with zero only if it is zero. -/
def decimal? : List Char → Option Nat
  | ['0'] => some 0
  | '0' :: _ => none
  | characters => grouped? 10 characters

/-- An integer: decimal with an optional sign, or hexadecimal, octal or binary. -/
def integer? : List Char → Option Int
  | '0' :: 'x' :: digits => (grouped? 16 digits).map Int.ofNat
  | '0' :: 'o' :: digits => (grouped? 8 digits).map Int.ofNat
  | '0' :: 'b' :: digits => (grouped? 2 digits).map Int.ofNat
  | '+' :: digits => (decimal? digits).map Int.ofNat
  | '-' :: digits => (decimal? digits).map fun value => -Int.ofNat value
  | digits => (decimal? digits).map Int.ofNat

def coded? (digits : List Char) : Option Char :=
  (digits.foldl
    (fun value digit =>
      match value, Text.Numeral.digitIn? 16 digit with
      | some code, some next => some (code * 16 + next)
      | _, _ => none)
    (some 0)).bind fun code =>
      if code < 0xD800 ∨ (0xDFFF < code ∧ code < 0x110000) then some (Char.ofNat code) else none

def escaped? : Char → Option Char
  | 'b' => some '\x08'
  | 't' => some '\t'
  | 'n' => some '\n'
  | 'f' => some '\x0c'
  | 'r' => some '\r'
  | 'e' => some '\x1b'
  | '"' => some '"'
  | '\\' => some '\\'
  | _ => none

/-- A part of the text that has been read, and what follows it. -/
abbrev Reading (α : Type) :=
  Option (α × List Char)

/-- Put a character in front of the content of a string. -/
def prepend (character : Option Char) (reading : Reading (List Char)) : Reading (List Char) :=
  match character, reading with
  | some first, some (content, rest) => some (first :: content, rest)
  | _, _ => none

/-- The rest of a string between double quotes. -/
def basic : List Char → Reading (List Char)
  | [] => none
  | '"' :: rest => some ([], rest)
  | '\\' :: 'x' :: a :: b :: rest => prepend (coded? [a, b]) (basic rest)
  | '\\' :: 'u' :: a :: b :: c :: d :: rest => prepend (coded? [a, b, c, d]) (basic rest)
  | '\\' :: 'U' :: a :: b :: c :: d :: e :: f :: g :: h :: rest =>
      prepend (coded? [a, b, c, d, e, f, g, h]) (basic rest)
  | '\\' :: mark :: rest => prepend (escaped? mark) (basic rest)
  | character :: rest =>
      if isPlain character ∧ character ≠ '\\' then prepend (some character) (basic rest)
      else none

/-- The rest of a string between single quotes. -/
def literal : List Char → Reading (List Char)
  | [] => none
  | '\x27' :: rest => some ([], rest)
  | character :: rest =>
      if isPlain character then prepend (some character) (literal rest) else none

/-- Whether a line ends after some blanks. -/
def endsLine (characters : List Char) : Bool :=
  match characters.dropWhile isSpace with
  | '\n' :: _ => true
  | '\r' :: '\n' :: _ => true
  | _ => false

/-- The rest of a string between triple double quotes.  While `trimming`, which begins
at a backslash at the end of a line, blanks and line ends are passed. -/
def basicLines (trimming : Bool) : List Char → Reading (List Char)
  | [] => none
  | '"' :: '"' :: '"' :: '"' :: '"' :: rest => some (['"', '"'], rest)
  | '"' :: '"' :: '"' :: '"' :: rest => some (['"'], rest)
  | '"' :: '"' :: '"' :: rest => some ([], rest)
  | '\\' :: 'x' :: a :: b :: rest => prepend (coded? [a, b]) (basicLines false rest)
  | '\\' :: 'u' :: a :: b :: c :: d :: rest =>
      prepend (coded? [a, b, c, d]) (basicLines false rest)
  | '\\' :: 'U' :: a :: b :: c :: d :: e :: f :: g :: h :: rest =>
      prepend (coded? [a, b, c, d, e, f, g, h]) (basicLines false rest)
  | '\\' :: mark :: rest =>
      if endsLine (mark :: rest) then basicLines true rest
      else prepend (escaped? mark) (basicLines false rest)
  | '\r' :: '\n' :: rest =>
      if trimming then basicLines true rest
      else prepend (some '\r') (prepend (some '\n') (basicLines false rest))
  | character :: rest =>
      if character = '\n' ∨ isSpace character then
        if trimming then basicLines true rest
        else prepend (some character) (basicLines false rest)
      else if isPlain character ∧ character ≠ '\\' then
        prepend (some character) (basicLines false rest)
      else none

/-- The rest of a string between triple single quotes. -/
def literalLines : List Char → Reading (List Char)
  | [] => none
  | '\x27' :: '\x27' :: '\x27' :: '\x27' :: '\x27' :: rest => some (['\x27', '\x27'], rest)
  | '\x27' :: '\x27' :: '\x27' :: '\x27' :: rest => some (['\x27'], rest)
  | '\x27' :: '\x27' :: '\x27' :: rest => some ([], rest)
  | '\r' :: '\n' :: rest => prepend (some '\r') (prepend (some '\n') (literalLines rest))
  | character :: rest =>
      if isPlain character ∨ character = '\n' then prepend (some character) (literalLines rest)
      else none

/-- Pass one line end, which does not belong to a string that it opens. -/
def dropLineEnd : List Char → List Char
  | '\n' :: rest => rest
  | '\r' :: '\n' :: rest => rest
  | characters => characters

/-- Turn the content of a string into text. -/
def asText (reading : Reading (List Char)) : Reading Value :=
  reading.map fun (content, rest) => (.text (String.ofList content), rest)

/-- Whether a character ends a value without quotes. -/
def endsWord (character : Char) : Bool :=
  isSpace character || character = '\n' || character = '\r' || character = '#'

def value : List Char → Reading Value
  | '"' :: '"' :: '"' :: rest => asText (basicLines false (dropLineEnd rest))
  | '"' :: rest => asText (basic rest)
  | '\x27' :: '\x27' :: '\x27' :: rest => asText (literalLines (dropLineEnd rest))
  | '\x27' :: rest => asText (literal rest)
  | characters =>
      (integer? (characters.takeWhile fun character => !endsWord character)).map fun number =>
        (.integer number, characters.dropWhile fun character => !endsWord character)

def key : List Char → Reading String
  | '"' :: rest => (basic rest).map fun (content, others) => (String.ofList content, others)
  | '\x27' :: rest => (literal rest).map fun (content, others) => (String.ofList content, others)
  | characters =>
      match characters.takeWhile isBareKey with
      | [] => none
      | name => some (String.ofList name, characters.dropWhile isBareKey)

/-- Read the end of a line: blanks, perhaps a comment, and a line end or the end of the text. -/
def lineEnd (characters : List Char) : Option (List Char) :=
  let solid := characters.dropWhile isSpace
  let afterComment :=
    match solid with
    | '#' :: comment => comment.dropWhile isPlain
    | _ => solid
  match afterComment with
  | [] => some []
  | '\n' :: rest => some rest
  | '\r' :: '\n' :: rest => some rest
  | _ => none

/-- Read an entry up to the end of its value. -/
def entry (characters : List Char) : Reading Entry :=
  match key characters with
  | none => none
  | some (name, afterKey) =>
      match afterKey.dropWhile isSpace with
      | '=' :: afterMark =>
          (value (afterMark.dropWhile isSpace)).map fun (read, rest) => (⟨name, read⟩, rest)
      | _ => none

/-- Read entries until the text ends; each turn reads one line or one entry, so there
are fewer turns than characters. -/
def entriesWithin : Nat → List Char → Option (List Entry)
  | 0, characters => if characters = [] then some [] else none
  | turns + 1, characters =>
      match lineEnd characters with
      | some [] => some []
      | some rest => entriesWithin turns rest
      | none =>
          match entry (characters.dropWhile isSpace) with
          | none => none
          | some (first, afterEntry) =>
              match lineEnd afterEntry with
              | none => none
              | some rest => (entriesWithin turns rest).map fun others => first :: others

/-- The entries of a document, which may begin with a byte-order mark. -/
def entries (document : String) : Option (List Entry) :=
  let characters :=
    match document.toList with
    | '\uFEFF' :: rest => rest
    | characters => characters
  entriesWithin (characters.length + 1) characters

/-- Add an entry to the settings read so far. -/
def add (settings : Settings) (entry : Entry) : Option Settings :=
  match entry.key, entry.value with
  | "language", .text language =>
      if settings.language.isSome then none else some { settings with language := some language }
  | "timeout_secs", .integer seconds =>
      if settings.timeoutSeconds.isSome then none
      else if 0 ≤ seconds ∧ seconds.toNat ≤ Text.Numeral.maxUInt64 then
        some { settings with timeoutSeconds := some seconds.toNat }
      else none
  | "report", .text report =>
      if settings.report.isSome then none else some { settings with report := some report }
  | _, _ => none

def addAll (settings : Settings) : List Entry → Option Settings
  | [] => some settings
  | first :: others =>
      match add settings first with
      | some next => addAll next others
      | none => none

/-- The settings that a document gives, or nothing if it is refused. -/
def read (document : String) : Option Settings :=
  (entries document).bind (addAll {})

end CaseHarness.Settings.File
