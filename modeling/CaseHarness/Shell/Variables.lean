import CaseHarness.Shell.Grammar.Cursor
import CaseHarness.Shell.State
import CaseHarness.Shell.Utility.Number

/-!
# Variables

A variable has a name and a value; it may be one that programs see, and one that
keeps its value.  A function can take variables for itself, which are given back
when it ends.
-/

namespace CaseHarness.Shell

/-- A text in quotes, such that the shell reads it back as it is. -/
def quotedFrom (fuel : Nat) (characters : List Char) : List Char :=
  match fuel with
  | 0 => []
  | turns + 1 =>
      let plain := characters.takeWhile fun character => character ≠ '\x27'
      let marks := (characters.drop plain.length).takeWhile fun character => character = '\x27'
      let rest := characters.drop (plain.length + marks.length)
      let first := '\x27' :: plain ++ ['\x27']
      if marks = [] then first
      else if rest = [] then first ++ '"' :: marks ++ ['"']
      else first ++ '"' :: marks ++ '"' :: quotedFrom turns rest

/-- A value in quotes, such that the shell reads it back as it is. -/
def quotedValue (value : String) : String :=
  String.ofList (quotedFrom (value.length + 1) value.toList)

/-- A word cut at its first equals sign: the name, and the value if there is one. -/
def cutAssignment (word : String) : String × Option String :=
  let name := word.toList.takeWhile fun character => character ≠ '='
  match word.toList.drop name.length with
  | _ :: value => (String.ofList name, some (String.ofList value))
  | [] => (word, none)

namespace State

/-- Report that a name is none of a variable. -/
def refuseName (state : State) (name : String) : State :=
  state.fail (name ++ ": bad variable name")

/-- Whether a variable keeps its value. -/
def isFixed (state : State) (name : String) : Bool :=
  state.fixed.contains name

/-- Report that a variable keeps its value. -/
def refuseChange (state : State) (name : String) : State :=
  state.fail (name ++ ": is read only")

/-- Read words for options again from the word that a value names. -/
def placeOptions (state : State) (value : String) : State :=
  match Number.count? value with
  | some place => { state with optionPlace := (max place 1, none) }
  | none => state.fail ("Illegal number: " ++ value)

/-- Give a variable a value, unless this is impossible. -/
def bind (state : State) (name value : String) : State :=
  if !Grammar.isName name.toList then state.refuseName name
  else if state.isFixed name then state.refuseChange name
  else
    let assigned := state.assign name value
    if name = "OPTIND" then assigned.placeOptions value else assigned

/-- Forget a variable, unless this is impossible. -/
def forget (state : State) (name : String) : State :=
  if !Grammar.isName name.toList then state.refuseName name
  else if state.isFixed name then state.refuseChange name
  else state.unset name

/-- Let programs see a variable. -/
def expose (state : State) (name : String) : State :=
  if state.exported.contains name then state
  else { state with exported := state.exported ++ [name] }

/-- Let a variable keep its value. -/
def fix (state : State) (name : String) : State :=
  if state.isFixed name then state else { state with fixed := state.fixed ++ [name] }

/-- What a variable is at present. -/
def saved (state : State) (name : String) : Saved :=
  ⟨name, state.valueOf? name, (state.exported.contains name, state.isFixed name)⟩

/-- Begin a scope for variables. -/
def openScope (state : State) : State :=
  { state with scopes := ([], none) :: state.scopes }

/-- Let the innermost scope take a variable for itself, with a new value if one is given. -/
def takeVariable (state : State) (word : String) : State :=
  let (name, value) := cutAssignment word
  match state.scopes with
  | [] => state
  | (taken, options) :: others =>
      if !Grammar.isName name.toList then state.refuseName name
      else
        let held := { state with scopes := (state.saved name :: taken, options) :: others }
        match value with
        | some text => held.bind name text
        | none => held

/-- Let the innermost scope take the options for itself. -/
def takeOptions (state : State) : State :=
  match state.scopes with
  | [] => state
  | (taken, options) :: others =>
      { state with scopes := (taken, options.or (some state.options)) :: others }

/-- Make a variable what it was. -/
def giveBack (state : State) (before : Saved) : State :=
  let others := fun (names : List String) => names.filter fun name => name ≠ before.name
  let bindings := state.bindings.filter fun entry => entry.1 ≠ before.name
  let given : State :=
    { state with
      bindings :=
        match before.value with
        | some value => (before.name, value) :: bindings
        | none => bindings
      exported :=
        if before.marks.1 then others state.exported ++ [before.name] else others state.exported
      fixed := if before.marks.2 then others state.fixed ++ [before.name] else others state.fixed }
  if before.name = "OPTIND" then
    match before.value.bind Number.count? with
    | some place => { given with optionPlace := (max place 1, none) }
    | none => given
  else given

/-- End the innermost scope. -/
def closeScope (state : State) : State :=
  match state.scopes with
  | [] => state
  | (taken, options) :: others =>
      let given := taken.foldl giveBack { state with scopes := others }
      { given with options := options.getD given.options }

def sortedNames (names : List String) : List String :=
  names.eraseDups.mergeSort fun first second => first < second || first = second

/-- The lines that show some variables, each behind a word. -/
def shownVariables (state : State) (word : String) (names : List String) : String :=
  String.join ((sortedNames names).map fun name =>
    let value :=
      match state.valueOf? name with
      | some text => "=" ++ quotedValue text
      | none => ""
    (if word.isEmpty then "" else word ++ " ") ++ name ++ value ++ "\n")

end State

end CaseHarness.Shell
