import CaseHarness.Shell.Regular
import CaseHarness.Shell.Utility.Condition
import CaseHarness.Shell.Utility.Content

/-!
# Searching lines

The utility that shows the lines of files in which patterns are found.
-/

namespace CaseHarness.Shell.Utility

/-- How patterns are searched for in lines. -/
structure Query where
  patterns : List Regular
  /-- Upper and lower case are alike. -/
  alike : Bool
  /-- A match must not stand inside a word. -/
  words : Bool
  /-- A match must be the whole line. -/
  lines : Bool

/-- Whether a match that ends at a place is accepted. -/
def Query.accepts (query : Query) (before : Option Char) (place : Regular.Place) : Bool :=
  (!query.lines || (before.isNone && place.rest = [])) &&
    (!query.words ||
      (!(before.any Regular.isWordCharacter) && !(place.rest.head?.any Regular.isWordCharacter)))

/-- The longest accepted match at a place: its end. -/
def Query.matchAt (query : Query) (before : Option Char) (characters : List Char) :
    Option Regular.Place :=
  Regular.longest ((query.patterns.flatMap fun pattern =>
    Regular.ends query.alike pattern ⟨before, characters, []⟩).filter (query.accepts before))

/-- Whether a pattern is found from a place on. -/
def Query.isIn (query : Query) (before : Option Char) : List Char → Bool
  | [] => (query.matchAt before []).isSome
  | character :: rest =>
      (query.matchAt before (character :: rest)).isSome || query.isIn (some character) rest

/-- The texts of all matches that are not empty, from the left. -/
def Query.found (query : Query) : Nat → Option Char → List Char → List (List Char)
  | 0, _, _ => []
  | _ + 1, _, [] => []
  | fuel + 1, before, character :: rest =>
      match query.matchAt before (character :: rest) with
      | some place =>
          let taken := (character :: rest).take ((character :: rest).length - place.rest.length)
          if taken = [] then query.found fuel (some character) rest
          else taken :: query.found fuel taken.getLast? place.rest
      | none => query.found fuel (some character) rest

def searchOptions : OptionTable where
  letters := ("EFGHLPachilnoqrRsvwxyIz".toList.map fun letter => (letter, false)) ++
    ("efmABC".toList.map fun letter => (letter, true))
  names := [("extended-regexp", 'E'), ("fixed-strings", 'F'), ("basic-regexp", 'G'),
    ("regexp", 'e'), ("ignore-case", 'i'), ("invert-match", 'v'), ("word-regexp", 'w'),
    ("line-regexp", 'x'), ("count", 'c'), ("files-with-matches", 'l'),
    ("files-without-match", 'L'), ("max-count", 'm'), ("only-matching", 'o'), ("quiet", 'q'),
    ("silent", 'q'), ("no-messages", 's'), ("line-number", 'n'), ("with-filename", 'H'),
    ("no-filename", 'h'), ("text", 'a'), ("recursive", 'r'),
    ("dereference-recursive", 'R')]

/-- What a search has found so far: the state, and whether a line was selected and whether something
could not be read. -/
structure Hunt where
  state : State
  selected : Bool := false
  failed : Bool := false

/-- Report that the utility has been called wrongly. -/
def misuseSearch (state : State) (text : Option String) : State :=
  let complained :=
    match text with
    | some fault => report state fault 2
    | none => state
  (complained.say 2 ("Usage: " ++ state.name ++ " [OPTION]... PATTERNS [FILE]...\nTry '" ++
    state.name ++ " --help' for more information.\n")).withStatus 2

/-- Search one file. -/
def huntIn (query : Query) (options : Options) (named : Bool) (hunt : Hunt) (path : String) :
    Hunt :=
  if hunt.state.hasEnded then hunt
  else
    match hunt.state.readWhole path with
    | (next, .error fault) =>
        let shown := if path = "-" then "(standard input)" else path
        { hunt with
          state := if options.has 's' then next else report next (shown ++ ": " ++ fault.reason) 2
          failed := true }
    | (next, .ok bytes) =>
        let label := if path = "-" then "(standard input)" else path
        let lines := (linesOf bytes).zipIdx 1
        let isSelected := fun entry : List UInt8 × Nat =>
          query.isIn none (Text.Utf8.decode (withoutNewline entry.1).1).toList != options.has 'v'
        let every := lines.filter isSelected
        let chosen :=
          match (options.argument? 'm').bind Number.count? with
          | some most => every.take most
          | none => every
        let start := fun number : Nat =>
          (if named then label ++ ":" else "") ++
            (if options.has 'n' then Text.Numeral.decimal number ++ ":" else "")
        let body : List UInt8 :=
          if options.has 'q' then []
          else if options.has 'l' || options.has 'L' then
            if chosen.isEmpty == options.has 'L' then Text.Utf8.encode (label ++ "\n") else []
          else if options.has 'c' then
            Text.Utf8.encode ((if named then label ++ ":" else "") ++
              Text.Numeral.decimal chosen.length ++ "\n")
          else if bytes.contains 0 && !options.has 'a' then
            if chosen = [] then []
            else Text.Utf8.encode (next.name ++ ": " ++ label ++ ": binary file matches\n")
          else if options.has 'o' then
            chosen.flatMap fun entry =>
              let characters := (Text.Utf8.decode (withoutNewline entry.1).1).toList
              (query.found (characters.length + 1) none characters).flatMap fun found =>
                Text.Utf8.encode (start entry.2 ++ String.ofList found ++ "\n")
          else
            chosen.flatMap fun entry =>
              Text.Utf8.encode (start entry.2) ++ (withoutNewline entry.1).1 ++ [Reader.newline]
        { hunt with
          state := emit next body
          selected := hunt.selected || chosen ≠ [] }

/-- The files that a path stands for when folders are searched to their bottom. -/
def filesBelow (state : State) (path : String) : List String :=
  match state.nodeAt? path .use with
  | some (location, .folder) =>
      let depth := location.length
      let below := state.world.tree.nodes.filterMap fun entry =>
        match entry.2 with
        | .file .. =>
            if location.isPrefixOf entry.1 then
              some (String.intercalate "/" (entry.1.drop depth))
            else none
        | _ => none
      (below.mergeSort fun first second => first < second || first = second).map fun name =>
        Path.append path name
  | _ => [path]

/-- Read patterns, each on a line of its own. -/
def patternsOf (fixed extended : Bool) (texts : List String) :
    Except Regular.Fault (List Regular) :=
  (texts.flatMap fun text => Path.split '\n' text.toList).foldr
    (fun characters known =>
      match known with
      | .error fault => .error fault
      | .ok others =>
          if fixed then .ok (Regular.exactly characters :: others)
          else (Regular.read extended characters).map fun found => found :: others)
    (.ok [])

/-- Show the lines in which patterns are found. -/
def search (kind : Option Char) (state : State) (arguments : List String) : State :=
  match Options.ofProgram searchOptions arguments with
  | .error fault => misuseSearch state (some fault.text)
  | .ok options =>
      let explicit := (options.given.filter fun entry => entry.1 = 'e').map Prod.snd
      let first := options.operands.head?.map fun pattern => [pattern]
      match (if explicit = [] then first else some explicit) with
      | none => misuseSearch state none
      | some texts =>
          let operands := if explicit = [] then options.operands.tail else options.operands
          let form := (options.lastOf? ['E', 'F', 'G', 'P']).or kind
          match patternsOf (form = some 'F') (form = some 'E' || form = some 'P') texts with
          | .error fault => report state fault.text 2
          | .ok patterns =>
              let query : Query :=
                ⟨patterns, options.has 'i' || options.has 'y', options.has 'w', options.has 'x'⟩
              let isDeep := options.has 'r' || options.has 'R'
              let named :=
                match options.lastOf? ['H', 'h'] with
                | some letter => letter = 'H'
                | none => isDeep || 1 < operands.length
              let paths :=
                if !isDeep then inputs operands
                else if operands = [] then
                  (filesBelow state ".").map fun path => String.ofList (path.toList.drop 2)
                else operands.flatMap (filesBelow state)
              let hunt := paths.foldl (huntIn query options named)
                { state := state.withStatus 0 }
              let isQuiet := options.has 'q' && hunt.selected
              hunt.state.withStatus
                (if isQuiet then 0
                else if hunt.failed || hunt.state.status ≠ 0 then 2
                else if hunt.selected then 0
                else 1)

end CaseHarness.Shell.Utility
