import CaseHarness.Shell.Builtin.Call
import CaseHarness.Shell.Expansion

/-!
# Commands for variables

Variables are marked, forgotten, and given values from a line of the input or
from options among words.
-/

namespace CaseHarness.Shell.Builtin

/-- Mark variables, some of which get a value first, or show those that have the mark. -/
def markVariables (word : String) (marked : List String) (mark : State → String → State)
    (state : State) (arguments : List String) : State :=
  let shown : State := emitText state (state.shownVariables word marked)
  let markAll := fun words : List String =>
    forEach (state.withStatus 0) words fun current given =>
      match cutAssignment given with
      | (name, some value) =>
          let bound := current.bind name value
          if bound.isRunning then mark bound name else bound
      | (name, none) =>
          if Grammar.isName name.toList then mark current name else current.refuseName name
  match arguments with
  | [] => shown
  | first :: rest =>
      match first.toList with
      | ['-', '-'] => if rest = [] then shown else markAll rest
      | ['-', 'p'] => shown
      | '-' :: letter :: _ =>
          if letter = 'p' then shown else state.fail ("Illegal option -" ++ String.ofList [letter])
      | _ => markAll arguments

/-- Let programs see variables. -/
def exportAll (state : State) (arguments : List String) : State :=
  markVariables "export" state.exported State.expose state arguments

/-- Let variables keep their values. -/
def fixAll (state : State) (arguments : List String) : State :=
  markVariables "readonly" state.fixed State.fix state arguments

/-- Take variables for the function that runs. -/
def takeLocals (state : State) (arguments : List String) : State :=
  if state.scopes = [] then state.fail "not in a function"
  else
    forEach (state.withStatus 0) arguments fun current word =>
      if word = "-" then current.takeOptions else current.takeVariable word

/-- Forget variables or functions. -/
def unset (state : State) (arguments : List String) : State :=
  withOptions [('v', false), ('f', false)] (state.withStatus 0) arguments fun options =>
    if options.given.getLast?.map Prod.fst = some 'f' then
      { state with
        functions := state.functions.filter fun entry => !options.operands.contains entry.1
        status := 0 }
    else forEach (state.withStatus 0) options.operands State.forget

/-! ### Reading a line -/

/-- A line that is being cut among a number of variables. -/
structure Cutting where
  /-- The fields that have ended, the latest first. -/
  fields : List (List Char) := []
  /-- In reverse the characters since the last field. -/
  current : List Char := []
  /-- Whether white space has ended the last field. -/
  spacing : Bool := false
  /-- How many fields may still begin behind separators. -/
  left : Nat
  /-- How many of the last characters remain, if the ones behind them are only separators. -/
  kept : Option Nat := none
  deriving Repr

/-- Add a character of the line; the flag says that it was protected. -/
def Cutting.add (separators : List Char) (cutting : Cutting) (entry : Marked) : Cutting :=
  let (character, isProtected) := entry
  let isSeparator := separators.contains character
  let isSpace := isSeparator && isSpacing character
  if isProtected then
    { cutting with current := character :: cutting.current, spacing := false }
  else if cutting.left = 0 then
    if isSpace then
      { cutting with
        kept := cutting.kept.or (some cutting.current.length)
        current := character :: cutting.current }
    else
      { cutting with
        kept := if isSeparator && cutting.spacing then cutting.kept else none
        current := character :: cutting.current
        spacing := false }
  else if cutting.spacing then
    { cutting with
      current := if isSeparator then [] else [character]
      spacing := isSpace }
  else if !isSeparator then { cutting with current := character :: cutting.current }
  else if isSpace && cutting.current = [] then cutting
  else if cutting.left = 1 then
    { cutting with
      left := 0
      kept := some cutting.current.length
      current := character :: cutting.current
      spacing := isSpace }
  else
    { cutting with
      fields := cutting.current.reverse :: cutting.fields
      current := []
      spacing := isSpace
      left := cutting.left - 1 }

/-- The fields of a line, at most a given number; the last one takes all that is left. -/
def cutLine (separators : List Char) (count : Nat) (line : List Marked) : List String :=
  let cut := line.foldl (Cutting.add separators) { left := count }
  let last := cut.current.reverse.take (cut.kept.getD cut.current.length)
  (if last = [] then cut.fields else last :: cut.fields).reverse.map String.ofList

/-- The characters of a line without the backslashes that protect others, and whether a backslash
is left at the end. -/
def protectedCharacters : List Char → List Marked × Bool
  | [] => ([], false)
  | ['\\'] => ([], true)
  | '\\' :: character :: rest =>
      let (others, isOpen) := protectedCharacters rest
      ((character, true) :: others, isOpen)
  | character :: rest =>
      let (others, isOpen) := protectedCharacters rest
      ((character, false) :: others, isOpen)

/-- Take a line from the standard input, which goes on behind a protected newline unless `plain` is
set; the flag says whether a newline ended it. -/
def takeLine (plain : Bool) : Nat → State → State × List Marked × Bool
  | 0, state => (state, [], false)
  | fuel + 1, state =>
      match state.takeLine 0 with
      | (next, none) => (next, [], false)
      | (next, some (bytes, complete)) =>
          let characters := (Text.Utf8.decode (bytes.filter fun byte => byte ≠ 0)).toList
          if plain then (next, characters.map fun character => (character, false), complete)
          else
            let (line, isOpen) := protectedCharacters characters
            if isOpen && complete then
              let (after, others, ended) := takeLine plain fuel next
              (after, line ++ others, ended)
            else (next, line, complete)

/-- How many lines may make up one. -/
def maxJoinedLines : Nat :=
  10000

/-- Read a line into variables. -/
def read (state : State) (arguments : List String) : State :=
  withOptions [('r', false), ('p', true)] state arguments fun options =>
    if options.operands = [] then state.fail "arg count"
    else
      let (next, line, complete) := takeLine (options.has 'r') maxJoinedLines state
      let fields := cutLine state.separators options.operands.length line
      let values := fields ++ List.replicate (options.operands.length - fields.length) ""
      (options.operands.zip values).foldl
        (fun (current : State) (name, value) =>
          if current.isRunning then current.bind name value else current)
        (next.withStatus (if complete then 0 else 1))

/-! ### Options among words -/

/-- What an option is in a list of letters, in which a colon stands behind those that need an
argument. -/
def letterKind? (letters : List Char) (letter : Char) : Option Bool :=
  match letters with
  | [] => none
  | known :: rest =>
      let needsArgument := rest.head? = some ':'
      if known = letter then some needsArgument
      else letterKind? (if needsArgument then rest.tail else rest) letter
  termination_by letters.length
  decreasing_by
    split <;> simp only [List.length_tail, List.length_cons] <;> omega

/-- Remember the option that has been found. -/
def finishOption (state : State) (holder : String) (letter : Char) (place : Nat)
    (inside : Option Nat) (status : Nat) : State :=
  let counted := state.assign "OPTIND" (Text.Numeral.decimal place)
  let placed := { counted with optionPlace := (place, inside) }
  (placed.withStatus status).bind holder (String.ofList [letter])

/-- Read the next option among words. -/
def nextOption (state : State) (letters : List Char) (holder : String) (words : List String) :
    State :=
  let (index, inside) := state.optionPlace
  let held :=
    match inside with
    | some used =>
        if index ≤ 1 then [] else ((words[index - 2]?).getD "").toList.drop used
    | none => []
  let begun : Option (List Char × Nat) :=
    if held ≠ [] then some (held, index)
    else
      match (words[index - 1]?).map String.toList with
      | some ('-' :: letter :: rest) => some (letter :: rest, index + 1)
      | _ => none
  let isQuiet := letters.head? = some ':'
  match begun with
  | none => finishOption state holder '?' index none 1
  | some ([], place) => finishOption state holder '?' place none 1
  | some (letter :: rest, place) =>
      let isEnd := held = [] && letter = '-' && rest = []
      let length := ((words[place - 2]?).getD "").length
      let insideNext := some (length - rest.length)
      let name := String.ofList [letter]
      let complained := fun text : String => (state.say 2 (text ++ "\n")).unset "OPTARG"
      match if isEnd then none else letterKind? letters letter with
      | none =>
          let told :=
            if isEnd then state
            else if isQuiet then state.assign "OPTARG" name
            else complained ("Illegal option -" ++ name)
          if isEnd then finishOption told holder '?' place none 1
          else finishOption told holder '?' place insideNext 0
      | some false =>
          finishOption (state.assign "OPTARG" "") holder letter place insideNext 0
      | some true =>
          match rest, words[place - 1]? with
          | _ :: _, _ =>
              finishOption (state.assign "OPTARG" (String.ofList rest)) holder letter place none 0
          | [], some word =>
              finishOption (state.assign "OPTARG" word) holder letter (place + 1) none 0
          | [], none =>
              if isQuiet then
                finishOption (state.assign "OPTARG" name) holder ':' place insideNext 0
              else
                finishOption (complained ("No arg for -" ++ name ++ " option")) holder '?' place
                  insideNext 0

/-- Read the next option among the given words or the positional arguments. -/
def getopts (state : State) (arguments : List String) : State :=
  match arguments with
  | letters :: holder :: given =>
      let words := if given = [] then state.arguments else given
      let ready :=
        if words.length + 1 < state.optionPlace.1 then { state with optionPlace := (1, none) }
        else state
      nextOption ready letters.toList holder words
  | _ => state.fail "Usage: getopts optstring var [arg...]"

end CaseHarness.Shell.Builtin
