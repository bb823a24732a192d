import CaseHarness.Shell.Script
import CaseHarness.Text.Numeral

/-!
# Places in a script

A cursor is a place in the text of a script together with the number of its
line.  The text of a redirection stands on the lines behind the current one and
is taken out when the redirection is read; those lines are counted when the
current line ends.
-/

namespace CaseHarness.Shell.Grammar

/-- A place in a script. -/
structure Cursor where
  rest : List Char
  line : Nat := 1
  /-- The number of lines that have been taken out behind the current one. -/
  hidden : Nat := 0
  deriving Repr

namespace Cursor

/-- The place behind some characters that hold no line end. -/
def skip (cursor : Cursor) (count : Nat) : Cursor :=
  { cursor with rest := cursor.rest.drop count }

/-- The place behind the next character. -/
def next (cursor : Cursor) : Cursor :=
  match cursor.rest with
  | [] => cursor
  | '\n' :: rest => ⟨rest, cursor.line + 1 + cursor.hidden, 0⟩
  | _ :: rest => { cursor with rest := rest }

/-- The place behind all line ends that a backslash joins to the next line, where `rest` are the
characters from a place on with the given numbers. -/
def joinedFrom (line hidden : Nat) : List Char → Cursor
  | '\\' :: '\n' :: rest => joinedFrom (line + 1 + hidden) 0 rest
  | rest => ⟨rest, line, hidden⟩

/-- The place behind all line ends that a backslash joins to the next line. -/
def joined (cursor : Cursor) : Cursor :=
  joinedFrom cursor.line cursor.hidden cursor.rest

/-- The place behind characters that may hold line ends. -/
def pass (cursor : Cursor) (passed : List Char) : Cursor :=
  passed.foldl (fun current _ => current.next) cursor

end Cursor

/-- Why a script cannot be read, and the line where that was found. -/
structure Fault where
  line : Nat
  text : String
  deriving DecidableEq, Repr

/-- What has been read, and the place behind it. -/
abbrev Read (α : Type) :=
  Except Fault (α × Cursor)

/-- The characters that end a word unless they are quoted. -/
def isMark (character : Char) : Bool :=
  [' ', '\t', '\n', ';', '&', '|', '<', '>', '(', ')'].contains character

def startsName (character : Char) : Bool :=
  character.isAlpha || character = '_'

def continuesName (character : Char) : Bool :=
  character.isAlphanum || character = '_'

def isName : List Char → Bool
  | [] => false
  | first :: rest => startsName first && rest.all continuesName

/-- Whether a parameter can be named by one character. -/
def isSpecial (character : Char) : Bool :=
  ['?', '$', '!', '#', '@', '*', '-'].contains character || character.isDigit

/-- The words that have a meaning of their own where a command begins. -/
def keywords : List String :=
  ["!", "case", "do", "done", "elif", "else", "esac", "fi", "for", "if", "in", "then", "until",
    "while", "\x7b", "\x7d"]

/-- The commands of the shell whose errors end it, and which keep the assignments in front of
them. -/
def specialCommands : List String :=
  [".", ":", "break", "continue", "eval", "exec", "exit", "export", "readonly", "return", "set",
    "shift", "times", "trap", "unset"]

/-- The name of an assignment, if a word is one, and its value. -/
def assignment? : Word → Option (String × Word)
  | .text characters false :: rest =>
      let name := characters.takeWhile fun character => character ≠ '='
      match characters.drop name.length with
      | '=' :: value =>
          if isName name then
            some (String.ofList name, if value = [] then rest else .text value false :: rest)
          else none
      | _ => none
  | _ => none

/-- The text of a word in which nothing is quoted or expanded. -/
def plainText? : Word → Option String
  | [.text characters false] => some (String.ofList characters)
  | _ => none

/-- The text of a word with its quotes removed, as far as it is text, and whether any of it is
quoted. -/
def literalText (word : Word) : List Char × Bool :=
  word.foldl
    (fun (text, isQuoted) part =>
      match part with
      | .text characters marked => (text ++ characters, isQuoted || marked)
      | .parameter name _ => (text ++ '$' :: name.toList, isQuoted)
      | _ => (text, isQuoted))
    ([], false)

/-- The lines up to one that equals the mark, how many lines they are together with it, and
what follows; `tabs` says that tabs at the beginning of lines are dropped. -/
def inlineLines (tabs : Bool) (mark : List Char) : Nat → List Char → List Char × Nat × List Char
  | 0, characters => ([], 0, characters)
  | turns + 1, characters =>
      if characters = [] then ([], 0, [])
      else
        let line := characters.takeWhile fun character => character ≠ '\n'
        let behind := characters.drop line.length
        let following := behind.drop 1
        let shown := if tabs then line.dropWhile fun character => character = '\t' else line
        if shown = mark then ([], 1, following)
        else if behind = [] then (shown, 0, [])
        else
          let (others, count, rest) := inlineLines tabs mark turns following
          (shown ++ '\n' :: others, count + 1, rest)

/-- Take the text of a redirection out of the lines behind the current one. -/
def takeInline (tabs : Bool) (mark : List Char) (cursor : Cursor) : List Char × Cursor :=
  let current := cursor.rest.takeWhile fun character => character ≠ '\n'
  let behind := (cursor.rest.drop current.length).drop 1
  let (text, count, following) := inlineLines tabs mark (behind.length + 1) behind
  (text, { cursor with rest := current ++ '\n' :: following, hidden := cursor.hidden + count })

/-- The characters between back quotes, with the backslashes removed that protect a back quote, a
backslash, a dollar sign or, inside other quotes, a quotation mark. -/
def untilBackQuote (isQuoted : Bool) : List Char → Option (List Char × List Char)
  | [] => none
  | '\x60' :: _ => some ([], ['\x60'])
  | '\\' :: '\n' :: rest =>
      (untilBackQuote isQuoted rest).map fun (inner, passed) => (inner, '\\' :: '\n' :: passed)
  | '\\' :: character :: rest =>
      (untilBackQuote isQuoted rest).map fun (inner, passed) =>
        let removed := ['\\', '\x60', '$'].contains character || (isQuoted && character = '"')
        (if removed then character :: inner else '\\' :: character :: inner,
          '\\' :: character :: passed)
  | character :: rest =>
      (untilBackQuote isQuoted rest).map fun (inner, passed) =>
        (character :: inner, character :: passed)

end CaseHarness.Shell.Grammar
