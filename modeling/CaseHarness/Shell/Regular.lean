import CaseHarness.Shell.Pattern
import CaseHarness.Text.Numeral

/-!
# Regular expressions

A regular expression describes parts of a line.  It is written in a basic form,
where most signs have their meaning behind a backslash, or in an extended one.
`Regular.ends` gives all places where a match can end, the preferred ones first;
of all matches the leftmost is taken, and of those the longest.
-/

namespace CaseHarness.Shell

/-- A regular expression. -/
inductive Regular where
  /-- The empty text. -/
  | nothing
  /-- One character in, or with `negated` outside, some inclusive ranges and named classes. -/
  | oneOf (negated : Bool) (ranges : List (Char × Char)) (classes : List String)
  | anyOne
  | lineStart
  | lineEnd
  /-- A place between characters of which at most one belongs to a word; `start` and `finish` say
  whether a word may begin or end there. -/
  | wordEdge (start finish : Bool)
  /-- A place where no word begins or ends. -/
  | noEdge
  | sequence (first second : Regular)
  | either (first second : Regular)
  | repeated (body : Regular) (least : Nat) (most : Option Nat)
  /-- What it matches can be referred to. -/
  | group (index : Nat) (body : Regular)
  /-- What a group has matched. -/
  | again (index : Nat)
  deriving DecidableEq, Repr

namespace Regular

/-- A place in a line: the character before it, the characters behind it, and what the groups have
matched so far. -/
structure Place where
  previous : Option Char
  rest : List Char
  groups : List (Nat × List Char) := []
  deriving DecidableEq, Repr

/-- The place behind some characters. -/
def Place.pass (place : Place) (count : Nat) : Place :=
  { place with
    previous := if count = 0 then place.previous else (place.rest.take count).getLast?
    rest := place.rest.drop count }

def isWordCharacter (character : Char) : Bool :=
  character.isAlphanum || character = '_'

/-- Whether a character is in a set; with `alike` upper and lower case are alike. -/
def contains (alike : Bool) (ranges : List (Char × Char)) (classes : List String)
    (character : Char) : Bool :=
  let isIn := fun candidate : Char =>
    ranges.any (fun range => range.1 ≤ candidate && candidate ≤ range.2) ||
      classes.any fun name => inClass name candidate
  isIn character || (alike && (isIn character.toLower || isIn character.toUpper))

/-- The places where a repetition can end, those of more turns first.  A turn that matches
nothing is the last one. -/
def iterate (step : Place → List Place) : Nat → Nat → Option Nat → Place → List Place
  | 0, _, _, place => [place]
  | turns + 1, least, most, place =>
      let more :=
        if most = some 0 then []
        else
          (step place).flatMap fun next =>
            if next.rest.length = place.rest.length then (if least ≤ 1 then [next] else
              iterate step turns (least - 1) (most.map fun count => count - 1) next)
            else iterate step turns (least - 1) (most.map fun count => count - 1) next
      if least = 0 then more ++ [place] else more

/-- The places where a match that begins at a place can end. -/
def ends (alike : Bool) : Regular → Place → List Place
  | nothing, place => [place]
  | oneOf negated ranges classes, place =>
      match place.rest with
      | [] => []
      | character :: _ =>
          if contains alike ranges classes character != negated then [place.pass 1] else []
  | anyOne, place => if place.rest = [] then [] else [place.pass 1]
  | lineStart, place => if place.previous = none then [place] else []
  | lineEnd, place => if place.rest = [] then [place] else []
  | wordEdge start finish, place =>
      let before := place.previous.any isWordCharacter
      let behind := place.rest.head?.any isWordCharacter
      if (start && !before && behind) || (finish && before && !behind) then [place] else []
  | noEdge, place =>
      if place.previous.any isWordCharacter = place.rest.head?.any isWordCharacter then [place]
      else []
  | sequence first second, place => (ends alike first place).flatMap (ends alike second)
  | either first second, place => ends alike first place ++ ends alike second place
  | repeated body least most, place =>
      iterate (ends alike body) (place.rest.length + least + 1) least most place
  | group index body, place =>
      (ends alike body place).map fun next =>
        { next with groups :=
            (index, place.rest.take (place.rest.length - next.rest.length)) :: next.groups }
  | again index, place =>
      match place.groups.lookup index with
      | some matched =>
          if matched.isPrefixOf place.rest then [place.pass matched.length] else []
      | none => []

/-- The first of the places with the least behind them. -/
def longest : List Place → Option Place
  | [] => none
  | place :: others =>
      match longest others with
      | some best => if best.rest.length < place.rest.length then some best else some place
      | none => some place

/-- The longest match at a place: its end. -/
def matchAt (alike : Bool) (regular : Regular) (place : Place) : Option Place :=
  longest (ends alike regular place)

/-- The leftmost and longest match from a place on: how many characters stand before it, and its
end. -/
def search (alike : Bool) (regular : Regular) (skipped : Nat) (previous : Option Char) :
    List Char → Option (Nat × Place)
  | [] => (matchAt alike regular ⟨previous, [], []⟩).map fun found => (skipped, found)
  | character :: rest =>
      match matchAt alike regular ⟨previous, character :: rest, []⟩ with
      | some found => some (skipped, found)
      | none => search alike regular (skipped + 1) (some character) rest

/-- Whether a regular expression describes a part of a line. -/
def isIn (alike : Bool) (regular : Regular) (line : List Char) : Bool :=
  (search alike regular 0 none line).isSome

/-- A regular expression that describes one text only. -/
def exactly (text : List Char) : Regular :=
  text.foldr (fun character rest => sequence (oneOf false [(character, character)] []) rest) nothing

/-- Why a text is no regular expression. -/
inductive Fault where
  | openBracket
  | openGroup
  | closedGroup
  | openCount
  | badCount
  | loneBackslash
  | badReference
  deriving DecidableEq, Repr

def Fault.text : Fault → String
  | openBracket => "Unmatched [, [^, [:, [., or [="
  | openGroup => "Unmatched ( or \\("
  | closedGroup => "Unmatched ) or \\)"
  | openCount => "Unmatched \x7b or \\\x7b"
  | badCount => "Invalid content of \\\x7b\\\x7d"
  | loneBackslash => "Trailing backslash"
  | badReference => "Invalid back reference"

/-- What has been read, what follows it, and how many groups have been opened. -/
abbrev Reading :=
  Except Fault (Regular × List Char × Nat)

/-- The set behind an opening bracket, and what follows it. -/
def bracket (characters : List Char) : Except Fault (Regular × List Char) :=
  let (negated, inside) :=
    match characters with
    | '^' :: rest => (true, rest)
    | rest => (false, rest)
  match Element.members? [] [] true (inside.length + 1)
      (inside.map fun character => (character, false)) with
  | some (ranges, classes, rest) =>
      .ok (oneOf negated ranges.reverse classes.reverse, rest.map Prod.fst)
  | none => .error .openBracket

/-- The limits of a repetition behind an opening brace, and what follows the closing one. -/
def limits (extended : Bool) (characters : List Char) :
    Except Fault (Nat × Option Nat × List Char) :=
  let firstDigits := characters.takeWhile Char.isDigit
  let behind := characters.drop firstDigits.length
  let least := (Text.Numeral.digits? firstDigits).getD 0
  let (most, rest) : Option Nat × List Char :=
    match behind with
    | ',' :: others =>
        let digits := others.takeWhile Char.isDigit
        (Text.Numeral.digits? digits, others.drop digits.length)
    | others => (some least, others)
  let close := if extended then ['\x7d'] else ['\\', '\x7d']
  if close.isPrefixOf rest then
    if firstDigits = [] ∧ behind.head? ≠ some ',' then .error .badCount
    else .ok (least, most, rest.drop close.length)
  else if rest = [] then .error .openCount
  else .error .badCount

/-- The class that a letter behind a backslash stands for. -/
def letterClass? : Char → Option Regular
  | 'w' => some (oneOf false [('_', '_')] ["alnum"])
  | 'W' => some (oneOf true [('_', '_')] ["alnum"])
  | 's' => some (oneOf false [] ["space"])
  | 'S' => some (oneOf true [] ["space"])
  | 'b' => some (wordEdge true true)
  | '<' => some (wordEdge true false)
  | '>' => some (wordEdge false true)
  | 'B' => some noEdge
  | _ => none

def endsBranch (extended : Bool) (depth : Nat) : List Char → Bool
  | [] => true
  | '|' :: _ => extended
  | ')' :: _ => extended && 0 < depth
  | '\\' :: '|' :: _ => !extended
  | '\\' :: ')' :: _ => !extended
  | _ => false

/-- Apply the repetitions that follow a part. -/
def repetitions (extended : Bool) : Nat → Regular → List Char → Except Fault (Regular × List Char)
  | 0, body, characters => .ok (body, characters)
  | fuel + 1, body, characters =>
      let counted := fun rest : List Char =>
        match limits extended rest with
        | .error fault => .error fault
        | .ok (least, most, others) => repetitions extended fuel (repeated body least most) others
      match characters with
      | '*' :: rest => repetitions extended fuel (repeated body 0 none) rest
      | '+' :: rest =>
          if extended then repetitions extended fuel (repeated body 1 none) rest
          else .ok (body, characters)
      | '?' :: rest =>
          if extended then repetitions extended fuel (repeated body 0 (some 1)) rest
          else .ok (body, characters)
      | '\x7b' :: rest =>
          if extended && (rest.head?.any fun first => first.isDigit || first = ',') then
            counted rest
          else .ok (body, characters)
      | '\\' :: '+' :: rest =>
          if extended then .ok (body, characters)
          else repetitions extended fuel (repeated body 1 none) rest
      | '\\' :: '?' :: rest =>
          if extended then .ok (body, characters)
          else repetitions extended fuel (repeated body 0 (some 1)) rest
      | '\\' :: '\x7b' :: rest => if extended then .ok (body, characters) else counted rest
      | _ => .ok (body, characters)

mutual

/-- Read branches up to the end or a closing parenthesis. -/
def branches (extended : Bool) : Nat → Nat → Nat → List Char → Reading
  | 0, _, groups, characters => .ok (nothing, characters, groups)
  | fuel + 1, depth, groups, characters =>
      match branch extended fuel depth groups true characters with
      | .error fault => .error fault
      | .ok (first, rest, opened) =>
          let others :=
            match rest with
            | '|' :: others => if extended then some others else none
            | '\\' :: '|' :: others => if extended then none else some others
            | _ => none
          match others with
          | none => .ok (first, rest, opened)
          | some following =>
              (branches extended fuel depth opened following).map fun (second, last) =>
                (either first second, last)

/-- Read the parts of a branch; `begins` says whether it has none yet. -/
def branch (extended : Bool) : Nat → Nat → Nat → Bool → List Char → Reading
  | 0, _, groups, _, characters => .ok (nothing, characters, groups)
  | fuel + 1, depth, groups, begins, characters =>
      if endsBranch extended depth characters then
        match characters, depth with
        | '\\' :: ')' :: _, 0 => .error .closedGroup
        | _, _ => .ok (nothing, characters, groups)
      else
        match part extended fuel depth groups begins characters with
        | .error fault => .error fault
        | .ok (found, rest, opened) =>
            match repetitions extended (rest.length + 1) found rest with
            | .error fault => .error fault
            | .ok (whole, following) =>
                (branch extended fuel depth opened (found = lineStart) following).map
                  fun (others, last) => (sequence whole others, last)

def part (extended : Bool) : Nat → Nat → Nat → Bool → List Char → Reading
  | 0, _, groups, _, characters => .ok (nothing, characters, groups)
  | fuel + 1, depth, groups, begins, characters =>
      let literal := fun (character : Char) (rest : List Char) =>
        (.ok (oneOf false [(character, character)] [], rest, groups) : Reading)
      let grouped := fun rest : List Char =>
        match branches extended fuel (depth + 1) (groups + 1) rest with
        | .error fault => .error fault
        | .ok (body, following, opened) =>
            let close := if extended then [')'] else ['\\', ')']
            if close.isPrefixOf following then
              .ok (group (groups + 1) body, following.drop close.length, opened)
            else .error .openGroup
      match characters with
      | [] => .ok (nothing, [], groups)
      | '[' :: rest => (bracket rest).map fun (set, others) => (set, others, groups)
      | '.' :: rest => .ok (anyOne, rest, groups)
      | '^' :: rest =>
          if extended || begins then .ok (lineStart, rest, groups) else literal '^' rest
      | '$' :: rest =>
          if extended || endsBranch false 1 rest then .ok (lineEnd, rest, groups)
          else literal '$' rest
      | '(' :: rest => if extended then grouped rest else literal '(' rest
      | '*' :: rest =>
          if extended && begins then .ok (nothing, rest, groups) else literal '*' rest
      | ['\\'] => .error .loneBackslash
      | '\\' :: '(' :: rest => if extended then literal '(' rest else grouped rest
      | '\\' :: character :: rest =>
          match letterClass? character with
          | some found => .ok (found, rest, groups)
          | none =>
              if character.isDigit && character ≠ '0' then
                let index := character.toNat - '0'.toNat
                if index ≤ groups then .ok (again index, rest, groups) else .error .badReference
              else literal character rest
      | character :: rest => literal character rest

end

def read (extended : Bool) (characters : List Char) : Except Fault Regular :=
  match branches extended (4 * characters.length + 8) 0 0 characters with
  | .error fault => .error fault
  | .ok (found, [], _) => .ok found
  | .ok _ => .error .closedGroup

end Regular

end CaseHarness.Shell
