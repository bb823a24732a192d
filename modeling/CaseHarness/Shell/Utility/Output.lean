import CaseHarness.Shell.State
import CaseHarness.Shell.Utility.Options

/-!
# Writing words

A utility exists as a program or as a part of the shell, or as both; the shell
reports faults in a form of its own.  The simplest utility writes its arguments.
-/

namespace CaseHarness.Shell

/-- Where a utility runs: inside the shell, or as a program. -/
inductive Origin where
  | shell
  | program
  deriving DecidableEq, Repr

/-- Report a fault of a utility on the error output.  The shell puts in front what it runs, and a
program puts its name there. -/
def Origin.report (origin : Origin) (state : State) (text : String) : State :=
  match origin with
  | .shell => state.complain text
  | .program => state.say 2 (state.name ++ ": " ++ text ++ "\n")

/-- Write the output of a utility and leave a status, or fail if that is impossible. -/
def Origin.emit (origin : Origin) (state : State) (bytes : List UInt8) (status : Nat) : State :=
  match state.write 1 bytes with
  | (written, none) => written.withStatus status
  | (refused, some fault) =>
      let text :=
        match origin with
        | .shell => refused.caller.getD "" ++ ": I/O error"
        | .program => "write error: " ++ fault.reason
      (origin.report refused text).withStatus 1

/-- A text between the quotes of diagnostics. -/
def inQuotes (text : String) : String :=
  "'" ++ text ++ "'"

namespace Utility

/-- Report a fault of a program and leave a status. -/
def report (state : State) (text : String) (status : Nat) : State :=
  (Origin.program.report state text).withStatus status

/-- Report that a program has been called wrongly, and leave a status. -/
def misuse (state : State) (text : String) (status : Nat) : State :=
  report state (text ++ "\nTry '" ++ state.name ++ " --help' for more information.") status

/-- Write the output of a program. -/
def emit (state : State) (bytes : List UInt8) : State :=
  Origin.program.emit state bytes state.status

/-- Write a text as the output of a program. -/
def emitText (state : State) (text : String) : State :=
  emit state (Text.Utf8.encode text)

/-- Run a program with its options, or leave a status if they are wrong. -/
def withOptions (table : OptionTable) (fault : Nat) (state : State) (arguments : List String)
    (body : Options → State) : State :=
  match Options.ofProgram table arguments with
  | .error wrong => misuse state wrong.text fault
  | .ok options => body options

/-- Which escapes there are besides those of one letter and octal codes. -/
structure Escapes where
  /-- An octal code may begin with an additional zero. -/
  zero : Bool
  /-- A code of its own ends the output. -/
  stops : Bool
  /-- A quotation mark may be escaped. -/
  quote : Bool
  /-- Hexadecimal codes. -/
  hexadecimal : Bool
  /-- Hexadecimal codes of characters; those beyond ASCII are shown as codes. -/
  universal : Bool
  deriving DecidableEq, Repr

namespace Escapes

def shellArgument : Escapes :=
  ⟨true, true, false, false, false⟩

def shellFormat : Escapes :=
  ⟨false, false, false, false, false⟩

/-- The escapes of the arguments that a program writes. -/
def programWords : Escapes :=
  ⟨true, true, false, true, false⟩

def programArgument : Escapes :=
  ⟨true, true, true, true, true⟩

def programFormat : Escapes :=
  ⟨false, true, true, true, true⟩

end Escapes

def isOctal (character : Char) : Bool :=
  '0' ≤ character && character ≤ '7'

def octal (digits : List Char) : Nat :=
  digits.foldl (fun value digit => value * 8 + (digit.toNat - '0'.toNat)) 0

def escapeOf? : Char → Option Char
  | 'a' => some '\x07'
  | 'b' => some '\x08'
  | 'e' => some '\x1b'
  | 'f' => some '\x0c'
  | 'n' => some '\n'
  | 'r' => some '\r'
  | 't' => some '\t'
  | 'v' => some '\x0b'
  | '\\' => some '\\'
  | _ => none

def hexadecimalValue (digits : List Char) : Nat :=
  digits.foldl (fun sum digit => sum * 16 + (Text.Numeral.digitIn? 16 digit).getD 0) 0

/-- The digits that the code of a character needs behind its letter, if they are there. -/
def universalDigits? (letter : Char) (rest : List Char) : Option (List Char) :=
  let count := if letter = 'u' then 4 else 8
  let digits := (rest.take count).takeWhile fun digit => (Text.Numeral.digitIn? 16 digit).isSome
  if (letter = 'u' || letter = 'U') && digits.length = count then some digits else none

/-- What stands for the character with a code: the code itself, unless it is ASCII. -/
def universalBytes (value : Nat) : List UInt8 :=
  if value < 0x80 then [UInt8.ofNat value]
  else
    let digits := (Nat.toDigits 16 value).map Char.toUpper
    let (letter, count) := if value < 0x10000 then ('u', 4) else ('U', 8)
    Text.Utf8.encode (String.ofList
      ('\\' :: letter :: List.replicate (count - digits.length) '0' ++ digits))

/-- The bytes of the escape behind a backslash and what follows it, or nothing if it ends the
output.  A backslash that escapes nothing stands for itself. -/
def Escapes.read? (escapes : Escapes) (characters : List Char) :
    Option (List UInt8 × List Char) :=
  match characters with
  | [] => some ([0x5C], [])
  | character :: rest =>
      if isOctal character then
        let begun := if escapes.zero && character = '0' then rest else characters
        let digits := (begun.take 3).takeWhile isOctal
        some ([UInt8.ofNat (octal digits)], begun.drop digits.length)
      else if character = 'c' && escapes.stops then none
      else if character = '"' && escapes.quote then some ([0x22], rest)
      else if character = 'x' && escapes.hexadecimal then
        let digits := (rest.take 2).takeWhile fun digit => (Text.Numeral.digitIn? 16 digit).isSome
        if digits = [] then some ([0x5C, 0x78], rest)
        else some ([UInt8.ofNat (hexadecimalValue digits)], rest.drop digits.length)
      else
        match (if escapes.universal then universalDigits? character rest else none),
            escapeOf? character with
        | some digits, _ =>
            some (universalBytes (hexadecimalValue digits), rest.drop digits.length)
        | none, some known => some (String.utf8EncodeChar known, rest)
        | none, none => some ([0x5C], characters)

/-- The bytes of a text with escapes.  The flag says whether an escape ended the output. -/
def unescape (escapes : Escapes) : Nat → List Char → List UInt8 × Bool
  | 0, _ => ([], false)
  | _ + 1, [] => ([], false)
  | fuel + 1, '\\' :: rest =>
      match escapes.read? rest with
      | none => ([], true)
      | some (bytes, following) =>
          let (others, stopped) := unescape escapes fuel following
          (bytes ++ others, stopped)
  | fuel + 1, character :: rest =>
      let (others, stopped) := unescape escapes fuel rest
      (String.utf8EncodeChar character ++ others, stopped)

/-- The words of an output, with a blank between each two. -/
def spaced (words : List String) : String :=
  String.intercalate " " words

/-- The options of the program that writes its arguments: whether a newline follows, and
whether escapes are read. -/
def echoOptions (newline escapes : Bool) : List String → Bool × Bool × List String
  | [] => (newline, escapes, [])
  | word :: rest =>
      match word.toList with
      | '-' :: letter :: letters =>
          let all := letter :: letters
          if all.all fun option => ['n', 'e', 'E'].contains option then
            echoOptions (newline && !all.contains 'n')
              (match (all.filter fun option => option ≠ 'n').getLast? with
                | some 'e' => true
                | some _ => false
                | none => escapes) rest
          else (newline, escapes, word :: rest)
      | _ => (newline, escapes, word :: rest)

/-- Write the arguments on one line. -/
def echo (origin : Origin) (state : State) (arguments : List String) : State :=
  let (newline, escapes, words) : Bool × Option Escapes × List String :=
    match origin with
    | .shell =>
        if arguments.head? = some "-n" then (false, some .shellArgument, arguments.tail)
        else (true, some .shellArgument, arguments)
    | .program =>
        let (newline, escapes, words) := echoOptions true false arguments
        (newline, if escapes then some .programWords else none, words)
  let text := spaced words
  let (bytes, stopped) :=
    match escapes with
    | some known => unescape known (text.length + 1) text.toList
    | none => (Text.Utf8.encode text, false)
  origin.emit state (bytes ++ if newline && !stopped then [10] else []) 0

end Utility

end CaseHarness.Shell
