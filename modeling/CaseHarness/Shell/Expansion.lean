import CaseHarness.Shell.State

/-!
# Expanded words

The parts of a word expand to pieces; `Piece.fieldsOf` puts pieces together and
splits them into fields where an expansion without quotes has separators.  A
separator that is white space only separates; every other one ends a field of
its own.  A field with wildcards then stands for the paths that it describes.
-/

namespace CaseHarness.Shell

/-- A piece of an expanded word. -/
inductive Piece where
  /-- Marked characters; with `splittable` separators among them separate fields. -/
  | marked (characters : List Marked) (splittable : Bool)
  /-- Texts that are fields of their own, and are split as well with `splittable`. -/
  | whole (fields : List String) (splittable : Bool)
  deriving Repr

/-- The separators that are white space. -/
def isSpacing (character : Char) : Bool :=
  character = ' ' || character = '\t' || character = '\n'

def State.separators (state : State) : List Char :=
  ((state.valueOf? "IFS").getD " \t\n").toList

/-- The text between values that are put together: the first separator. -/
def State.joint (state : State) : String :=
  String.ofList (state.separators.take 1)

namespace Piece

def mark (isQuoted : Bool) (text : List Char) : List Marked :=
  text.map fun character => (character, isQuoted)

/-- What the last separator was. -/
inductive Gap where
  /-- No separator stands before the next character. -/
  | none
  /-- White space: more of it and one other separator may follow without ending a field. -/
  | spacing
  /-- Another separator: only white space may follow without ending a field. -/
  | solid
  deriving DecidableEq, Repr

/-- The fields so far, the latest first, and in reverse the field that has been begun. -/
structure Fields where
  finished : List (List Marked) := []
  begun : Option (List Marked) := none
  deriving Repr

/-- Add characters to the field that has been begun. -/
def Fields.add (fields : Fields) (characters : List Marked) : Fields :=
  { fields with begun := some (characters.reverse ++ fields.begun.getD []) }

/-- End the field that has been begun, or an empty one. -/
def Fields.close (fields : Fields) : Fields :=
  ⟨(fields.begun.getD []).reverse :: fields.finished, none⟩

/-- End the field that has been begun, if there is one. -/
def Fields.closeBegun (fields : Fields) : Fields :=
  if fields.begun.isSome then fields.close else fields

def addSplitting (separators : List Char) (gap : Gap) (fields : Fields) : List Marked → Fields
  | [] => fields
  | (character, isQuoted) :: rest =>
      if !separators.contains character then
        addSplitting separators .none (fields.add [(character, isQuoted)]) rest
      else if isSpacing character then
        match gap with
        | .none =>
            if fields.begun.isSome then addSplitting separators .spacing fields.close rest
            else addSplitting separators .none fields rest
        | held => addSplitting separators held fields rest
      else
        match gap with
        | .spacing => addSplitting separators .solid fields rest
        | .none | .solid => addSplitting separators .solid fields.close rest

/-- Add texts that are fields of their own; the first one goes on with the field that has been
begun, and the last one remains begun. -/
def addWhole (separators : List Char) (splittable : Bool) (fields : Fields) : List String → Fields
  | [] => fields
  | text :: rest =>
      let added :=
        if splittable then addSplitting separators .none fields (mark false text.toList)
        else fields.add (mark true text.toList)
      if rest = [] then added
      else
        addWhole separators splittable (if splittable then added.closeBegun else added.close) rest

def addTo (separators : List Char) (fields : Fields) : Piece → Fields
  | marked characters false => fields.add characters
  | marked characters true => addSplitting separators .none fields characters
  | whole [] false => if fields.begun = some [] then { fields with begun := none } else fields
  | whole texts splittable => addWhole separators splittable fields texts

/-- The fields that the pieces of a word make up. -/
def fieldsOf (separators : List Char) (pieces : List Piece) : List (List Marked) :=
  (pieces.foldl (addTo separators) {}).closeBegun.finished.reverse

/-- The pieces put together without splitting. -/
def joined (joint : String) (pieces : List Piece) : List Marked :=
  pieces.flatMap fun
    | marked characters _ => characters
    | whole texts _ => mark true (String.intercalate joint texts).toList

/-- Let the characters that are not quoted be split. -/
def loosened : Piece → Piece
  | marked characters splittable =>
      marked characters (splittable || (characters ≠ [] && characters.all fun entry => !entry.2))
  | whole texts splittable => whole texts splittable

end Piece

def unmarked (characters : List Marked) : String :=
  String.ofList (characters.map Prod.fst)

/-- The names inside a folder that is given by its path, sorted. -/
def State.namesIn (state : State) (path : String) : List String :=
  match state.world.tree.locate state.directory path with
  | .error _ => []
  | .ok location =>
      if state.world.tree.node? location = some .folder then
        (state.world.tree.children location).mergeSort fun first second =>
          first < second || first = second
      else []

def State.namesFolder (state : State) (path : String) : Bool :=
  match state.world.tree.locate state.directory path with
  | .error _ => false
  | .ok location => state.world.tree.node? location = some .folder

def cutAtSlashes : List Marked → List (List Marked)
  | [] => [[]]
  | entry :: rest =>
      if entry.1 = '/' then [] :: cutAtSlashes rest
      else
        match cutAtSlashes rest with
        | [] => [[entry]]
        | part :: parts => (entry :: part) :: parts

/-- The names in a folder that a part of a pattern describes.  A name that begins with a dot
must be asked for by a dot. -/
def matchingNames (state : State) (folder : String) (part : List Marked) : List String :=
  let wantsDot := (part.head?.map Prod.fst) = some '.'
  let names := state.namesIn (if folder.isEmpty then "." else folder)
  let elements := elementsOf part
  (if wantsDot then "." :: ".." :: names else names).filter fun name =>
    (wantsDot || name.toList.head? ≠ some '.') && Element.describes elements (unitsOf name.toList)

/-- The paths that begin with a given text and go on as the parts of a pattern say. -/
def describedPaths (state : State) (start : String) : List (List Marked) → List String
  | [] => [start]
  | [last] =>
      if hasWildcard last then (matchingNames state start last).map fun name => start ++ name
      else if state.world.tree.names state.directory (start ++ unmarked last) then
        [start ++ unmarked last]
      else []
  | part :: rest =>
      if hasWildcard part then
        ((matchingNames state start part).filter fun name =>
          state.namesFolder (start ++ name)).flatMap
          fun name => describedPaths state (start ++ name ++ "/") rest
      else describedPaths state (start ++ unmarked part ++ "/") rest

/-- The paths that a field with wildcards describes, or the field itself. -/
def matchPaths (state : State) (field : List Marked) : List String :=
  if state.hasOption 'f' || !hasWildcard field then [unmarked field]
  else
    let found := (describedPaths state "" (cutAtSlashes field)).mergeSort fun first second =>
      first < second || first = second
    if found = [] then [unmarked field] else found

/-- The letters of the options that are on, in the order in which they are shown. -/
def State.optionLetters (state : State) : String :=
  String.ofList ("pubaCEVvxsnmiIfe".toList.filter state.hasOption)

def parameter? (state : State) (name : String) : Option String :=
  match name with
  | "?" => some (Text.Numeral.decimal state.status)
  | "$" => some (Text.Numeral.decimal state.mainProcess)
  | "!" => state.lastJob.map Text.Numeral.decimal
  | "#" => some (Text.Numeral.decimal state.arguments.length)
  | "0" => some state.name
  | "-" => some state.optionLetters
  | "@" | "*" =>
      if state.arguments = [] then none
      else some (String.intercalate state.joint state.arguments)
  | _ =>
      match Text.Numeral.digits? name.toList with
      | some position => state.arguments[position - 1]?
      | none => state.valueOf? name

/-- The home folder that a word begins with the mark of, and the characters behind the mark. -/
def homeOf? (state : State) (characters : List Char) (isWhole : Bool) :
    Option (String × List Char) :=
  match characters with
  | '~' :: rest =>
      let user := rest.takeWhile fun character => character ≠ '/' && character ≠ ':'
      let following := rest.drop user.length
      if following = [] ∧ isWhole = false then none
      else if user = [] then (state.valueOf? "HOME").map fun home => (home, following)
      else if user = "root".toList then some ("/root", following)
      else none
  | _ => none

/-- Replace the marks of home folders in characters; with `inside` also behind colons. -/
def withHomes (state : State) (inside isWhole : Bool) (characters : List Char) : List Char :=
  let cut := if inside then Path.split ':' characters else [characters]
  let count := cut.length
  let replaced := cut.zipIdx.map fun (piece, place) =>
    match homeOf? state piece (isWhole || place + 1 < count) with
    | some (home, following) => home.toList ++ following
    | none => piece
  Path.joinWith ':' replaced

/-- Replace the marks of home folders at the beginning of a word, and in the value of an
assignment also behind colons.  A folder is quoted against splitting and matching. -/
def expandHome (state : State) (isAssignment : Bool) : Word → Word
  | .text characters false :: rest =>
      let changed := withHomes state isAssignment rest.isEmpty characters
      if changed = characters then .text characters false :: rest
      else if isAssignment then .text changed false :: rest
      else
        match homeOf? state characters rest.isEmpty with
        | some (home, following) =>
            .text home.toList true ::
              (if following = [] then rest else .text following false :: rest)
        | none => .text characters false :: rest
  | word => word

def holdsOutput (word : Word) : Bool :=
  word.any fun
    | .output _ _ => true
    | _ => false

end CaseHarness.Shell
