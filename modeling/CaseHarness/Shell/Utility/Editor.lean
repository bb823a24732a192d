import CaseHarness.Shell.Regular
import CaseHarness.Shell.Utility.Content

/-!
# Editing lines

The utility that edits lines by a script.  Each instruction of the script applies
to the lines that its addresses choose, and all instructions are applied to one
line after another.
-/

namespace CaseHarness.Shell

/-- What chooses a line. -/
inductive Address where
  | line (number : Nat)
  | last
  | matching (regular : Regular)
  deriving DecidableEq, Repr

/-- A part of what stands in for a match. -/
inductive Substitute where
  | character (character : Char)
  /-- What a group has matched; the group zero is the whole match. -/
  | group (index : Nat)
  deriving DecidableEq, Repr

/-- What is done with a line. -/
inductive Edit where
  /-- Put something in place of the matches from a given one on, or of that one only. -/
  | substitute (regular : Regular) (alike : Bool) (parts : List Substitute) (first : Nat)
      (every print : Bool)
  | exchange (pairs : List (Char × Char))
  | print
  | delete
  | quit (status : Nat) (prints : Bool)
  | showNumber
  | insert (text : String)
  | append (text : String)
  | change (text : String)
  deriving DecidableEq, Repr

/-- An edit with the lines that it applies to. -/
structure Instruction where
  first : Option Address
  second : Option Address
  negated : Bool
  edit : Edit
  deriving DecidableEq, Repr

namespace Instruction

/-- Why a script cannot be read: what is wrong, and how many characters follow the place. -/
structure Fault where
  text : String
  behind : Nat
  deriving DecidableEq, Repr

/-- The characters up to a mark that no backslash protects, and what follows the mark.  Outside
brackets a backslash in front of the mark is dropped. -/
def until? (mark : Char) : List Char → Option (List Char × List Char)
  | [] => none
  | '\\' :: character :: rest =>
      (until? mark rest).map fun (inner, others) =>
        (if character = mark then mark :: inner else '\\' :: character :: inner, others)
  | character :: rest =>
      if character = mark then some ([], rest)
      else (until? mark rest).map fun (inner, others) => (character :: inner, others)

/-- Read a regular expression. -/
def regular (extended : Bool) (characters rest : List Char) : Except Fault Regular :=
  match Regular.read extended characters with
  | .ok found => .ok found
  | .error fault => .error ⟨fault.text, rest.length⟩

def address (extended : Bool) (characters : List Char) :
    Except Fault (Option Address × List Char) :=
  match characters with
  | '$' :: rest => .ok (some .last, rest)
  | '/' :: rest =>
      match until? '/' rest with
      | none => .error ⟨"unterminated address regex", 0⟩
      | some (inner, others) =>
          (regular extended inner others).map fun found => (some (.matching found), others)
  | _ =>
      let (value, count, rest) := Number.digitsOf 10 characters
      .ok (if count = 0 then none else some (.line value), rest)

/-- The parts of what stands in for a match. -/
def substitutes : List Char → List Substitute
  | [] => []
  | '\\' :: 'n' :: rest => .character '\n' :: substitutes rest
  | '\\' :: 't' :: rest => .character '\t' :: substitutes rest
  | '\\' :: character :: rest =>
      (if character.isDigit then .group (character.toNat - '0'.toNat) else .character character) ::
        substitutes rest
  | '&' :: rest => .group 0 :: substitutes rest
  | character :: rest => .character character :: substitutes rest

/-- Read what follows the name of a substitution. -/
def substitution (extended : Bool) : List Char → Except Fault (Edit × List Char)
  | [] => .error ⟨"unterminated \x60s' command", 0⟩
  | mark :: rest =>
      match until? mark rest with
      | none => .error ⟨"unterminated \x60s' command", 0⟩
      | some (pattern, behind) =>
          match until? mark behind with
          | none => .error ⟨"unterminated \x60s' command", 0⟩
          | some (replacement, flagged) =>
              let flags := flagged.takeWhile fun flag =>
                flag.isDigit || ['g', 'p', 'i', 'I'].contains flag
              match regular extended pattern flagged with
              | .error fault => .error fault
              | .ok found =>
                  let number := (Text.Numeral.digits? (flags.filter Char.isDigit)).getD 1
                  .ok (.substitute found (flags.contains 'i' || flags.contains 'I')
                    (substitutes replacement) number (flags.contains 'g') (flags.contains 'p'),
                    flagged.drop flags.length)

/-- Read what follows the name of an exchange of characters. -/
def exchange : List Char → Except Fault (Edit × List Char)
  | [] => .error ⟨"unterminated \x60y' command", 0⟩
  | mark :: rest =>
      match until? mark rest with
      | none => .error ⟨"unterminated \x60y' command", 0⟩
      | some (source, behind) =>
          match until? mark behind with
          | none => .error ⟨"unterminated \x60y' command", 0⟩
          | some (target, others) =>
              if source.length = target.length then .ok (.exchange (source.zip target), others)
              else .error ⟨"strings for \x60y' command are different lengths", others.length⟩

/-- The text behind the name of an edit that shows one, and what follows the text. -/
def shownText (characters : List Char) : String × List Char :=
  let isSpace := fun character : Char => character = ' ' || character = '\t'
  let begun := characters.dropWhile isSpace
  let text :=
    match begun with
    | '\\' :: '\n' :: rest => rest
    | '\\' :: rest => rest
    | rest => rest
  let line := text.takeWhile fun character => character ≠ '\n'
  (String.ofList line, text.drop line.length)

def editOf (extended : Bool) (characters : List Char) : Except Fault (Edit × List Char) :=
  match characters with
  | 's' :: rest => substitution extended rest
  | 'y' :: rest => exchange rest
  | 'p' :: rest => .ok (.print, rest)
  | 'd' :: rest => .ok (.delete, rest)
  | '=' :: rest => .ok (.showNumber, rest)
  | 'q' :: rest =>
      let (value, _, others) := Number.digitsOf 10 (rest.dropWhile fun character => character = ' ')
      .ok (.quit value true, others)
  | 'Q' :: rest =>
      let (value, _, others) := Number.digitsOf 10 (rest.dropWhile fun character => character = ' ')
      .ok (.quit value false, others)
  | 'i' :: rest => let (text, others) := shownText rest; .ok (.insert text, others)
  | 'a' :: rest => let (text, others) := shownText rest; .ok (.append text, others)
  | 'c' :: rest => let (text, others) := shownText rest; .ok (.change text, others)
  | [] => .error ⟨"missing command", 0⟩
  | other :: rest =>
      .error ⟨"unknown command: \x60" ++ String.ofList [other] ++ "'", rest.length⟩

def readAll (extended : Bool) : Nat → List Char → Except Fault (List Instruction)
  | 0, _ => .ok []
  | fuel + 1, characters =>
      let isGap := fun character : Char => [' ', '\t', '\n', ';'].contains character
      match characters.dropWhile isGap with
      | [] => .ok []
      | '#' :: rest =>
          readAll extended fuel (rest.dropWhile fun character => character ≠ '\n')
      | begun =>
          match address extended begun with
          | .error fault => .error fault
          | .ok (first, behind) =>
              let second : Except Fault (Option Address × List Char) :=
                match first, behind with
                | some _, ',' :: rest =>
                    match address extended rest with
                    | .ok (none, _) => .error ⟨"unexpected \x60,'", rest.length⟩
                    | found => found
                | _, _ => .ok (none, behind)
              match second with
              | .error fault => .error fault
              | .ok (other, rest) =>
                  let spaced := rest.dropWhile fun character => character = ' '
                  let (negated, named) :=
                    match spaced with
                    | '!' :: others => (true, others.dropWhile fun character => character = ' ')
                    | others => (false, others)
                  match editOf extended named with
                  | .error fault => .error fault
                  | .ok (found, following) =>
                      let after := following.dropWhile fun character => character = ' '
                      match after with
                      | [] | ';' :: _ | '\n' :: _ | '#' :: _ =>
                          (readAll extended fuel after).map fun others =>
                            ⟨first, other, negated, found⟩ :: others
                      | _ :: others =>
                          let text :=
                            match found with
                            | .substitute .. => "unknown option to \x60s'"
                            | _ => "extra characters after command"
                          .error ⟨text, others.length⟩

end Instruction

namespace Address

def chooses (address : Address) (number : Nat) (isLast : Bool) (line : List Char) : Bool :=
  match address with
  | .line wanted => number = wanted
  | .last => isLast
  | .matching regular => regular.isIn false line

end Address

namespace Utility

/-- What becomes of one line. -/
structure Sheet where
  line : List Char
  /-- What is written before the line itself, and what behind it. -/
  before : List UInt8 := []
  behind : List UInt8 := []
  deleted : Bool := false
  ended : Option (Nat × Bool) := none
  deriving Repr

/-- Put something in place of matches from the given one on. -/
def replaceMatches (regular : Regular) (alike every : Bool) (parts : List Substitute) :
    Nat → Nat → Option Char → List Char → List Char × Bool
  | 0, _, _, characters => (characters, false)
  | turns + 1, passed, previous, characters =>
      match Regular.search alike regular 0 previous characters with
      | none => (characters, false)
      | some (skipped, place) =>
          let matched := (characters.drop skipped).take
            (characters.length - skipped - place.rest.length)
          let shown := parts.flatMap fun
            | .character character => [character]
            | .group 0 => matched
            | .group index => (place.groups.lookup index).getD []
          let isHit := passed ≤ 1
          let written := characters.take skipped ++ if isHit then shown else matched
          if isHit && !every then (written ++ place.rest, true)
          else if place.rest = [] then (written, isHit)
          else
            let (kept, rest) :=
              if matched = [] then (place.rest.take 1, place.rest.drop 1) else ([], place.rest)
            let (others, hit) :=
              replaceMatches regular alike every parts turns (passed - 1)
                ((written ++ kept).getLast?) rest
            (written ++ kept ++ others, isHit || hit)

def Sheet.apply (sheet : Sheet) (number : Nat) : Edit → Sheet
  | .substitute regular alike parts first every print =>
      let (line, hit) :=
        replaceMatches regular alike every parts (sheet.line.length + 2) first none sheet.line
      let before :=
        if hit && print then sheet.before ++ Text.Utf8.encode (String.ofList line ++ "\n")
        else sheet.before
      { sheet with line := line, before := before }
  | .exchange pairs =>
      { sheet with line := sheet.line.map fun character => (pairs.lookup character).getD character }
  | .print =>
      { sheet with before := sheet.before ++ Text.Utf8.encode (String.ofList sheet.line ++ "\n") }
  | .delete => { sheet with deleted := true }
  | .quit status prints => { sheet with ended := some (status, prints) }
  | .showNumber =>
      { sheet with
        before := sheet.before ++ Text.Utf8.encode (Text.Numeral.decimal number ++ "\n") }
  | .insert text => { sheet with before := sheet.before ++ Text.Utf8.encode (text ++ "\n") }
  | .append text => { sheet with behind := sheet.behind ++ Text.Utf8.encode (text ++ "\n") }
  | .change text =>
      { sheet with before := sheet.before ++ Text.Utf8.encode (text ++ "\n"), deleted := true }

/-- Apply instructions, each with whether it is inside its range, to a line. -/
def editLine (number : Nat) (isLast : Bool) :
    List (Instruction × Bool) → Sheet → Sheet × List (Instruction × Bool)
  | [], sheet => (sheet, [])
  | (instruction, inside) :: rest, sheet =>
      if sheet.deleted || sheet.ended.isSome then (sheet, (instruction, inside) :: rest)
      else
        let (chosen, goesOn) :=
          match instruction.first, instruction.second with
          | none, _ => (true, false)
          | some first, none => (first.chooses number isLast sheet.line, false)
          | some first, some second =>
              if inside then (true, !second.chooses number isLast sheet.line &&
                (match second with
                  | .line wanted => number < wanted
                  | _ => true))
              else if first.chooses number isLast sheet.line then
                (true, match second with
                  | .line wanted => number < wanted
                  | .last => !isLast
                  | .matching _ => true)
              else (false, false)
        let next :=
          if chosen != instruction.negated then sheet.apply number instruction.edit else sheet
        let (last, others) := editLine number isLast rest next
        (last, (instruction, goesOn) :: others)

/-- Edit lines one after another; the result has the latest piece first. -/
def editLines (silent : Bool) :
    Nat → List (Instruction × Bool) → List (List UInt8) → List (List UInt8) →
      List (List UInt8) × Nat
  | _, _, written, [] => (written, 0)
  | number, script, written, line :: rest =>
      let (content, ended) := withoutNewline line
      let (sheet, next) := editLine number (rest = []) script
        { line := (Text.Utf8.decode content).toList }
      let prints :=
        !silent && !sheet.deleted && (sheet.ended.all fun entry => entry.2)
      let own :=
        if prints then Text.Utf8.encode (String.ofList sheet.line) ++
          (if ended || sheet.behind ≠ [] then [Reader.newline] else []) else []
      let piece := sheet.before ++ own ++ sheet.behind
      match sheet.ended with
      | some (status, _) => (piece :: written, status)
      | none => editLines silent (number + 1) next (piece :: written) rest

def editorOptions : OptionTable where
  letters := [('n', false), ('E', false), ('r', false), ('e', true), ('i', false), ('s', false),
    ('u', false)]
  names := [("quiet", 'n'), ("silent", 'n'), ("regexp-extended", 'E'), ("expression", 'e'),
    ("in-place", 'i'), ("separate", 's'), ("unbuffered", 'u')]

/-- Edit lines by a script; to have none is an error. -/
def editor (state : State) (arguments : List String) : State :=
  match Options.ofProgram editorOptions arguments with
  | .error fault => report state fault.text 1
  | .ok options =>
      let given := (options.given.filter fun entry => entry.1 = 'e').map Prod.snd
      let texts := if given = [] then options.operands.take 1 else given
      let operands := if given = [] then options.operands.drop 1 else options.operands
      let text := (String.intercalate "\n" texts).toList
      if texts = [] then state.withStatus 1
      else
        match Instruction.readAll (options.has 'E' || options.has 'r') (text.length + 1) text with
        | .error fault =>
            report state ("-e expression #1, char " ++
              Text.Numeral.decimal (text.length - fault.behind) ++ ": " ++ fault.text) 1
        | .ok script =>
            let marked := script.map fun instruction => (instruction, false)
            let readOne := fun (current : State × List (String × List UInt8)) (path : String) =>
              match current.1.readWhole path with
              | (next, .error .isDirectory) =>
                  let text :=
                    if options.has 'i' then "couldn't edit " ++ path ++ ": not a regular file"
                    else "read error on " ++ path ++ ": Is a directory"
                  (report next text 4, current.2)
              | (next, .error fault) =>
                  (report next ("can't read " ++ path ++ ": " ++ fault.reason) 2, current.2)
              | (next, .ok bytes) => (next, current.2 ++ [(path, bytes)])
            let (ready, contents) := (inputs operands).foldl readOne (state.withStatus 0, [])
            let edited := fun lines : List (List UInt8) =>
              let (written, status) := editLines (options.has 'n') 1 marked [] lines
              (written.reverse.flatten, status)
            if options.has 'i' then
              contents.foldl
                (fun current (path, bytes) =>
                  (current.store path false (edited (linesOf bytes)).1).1)
                ready
            else
              let (bytes, status) := edited (contents.flatMap fun entry => linesOf entry.2)
              let shown := emit ready bytes
              if status = 0 then shown else shown.withStatus status

end Utility

end CaseHarness.Shell
