/-!
# Paths

A path is a text.  Its names are what stands between slashes; empty names and
single dots name nothing new and are passed over, a double dot leads to the
parent and is kept.
-/

namespace CaseHarness.Path

/-- Cut a text at every mark; there is always at least one piece. -/
def split (mark : Char) : List Char → List (List Char)
  | [] => [[]]
  | character :: rest =>
      if character = mark then [] :: split mark rest
      else
        match split mark rest with
        | [] => [[character]]
        | piece :: pieces => (character :: piece) :: pieces

/-- Put pieces together with a mark between each two. -/
def joinWith (mark : Char) : List (List Char) → List Char
  | [] => []
  | [piece] => piece
  | piece :: pieces => piece ++ mark :: joinWith mark pieces

/-- Whether a path begins at the root. -/
def isAbsolute (path : String) : Bool :=
  path.toList.head? = some '/'

def endsInSlash (path : String) : Bool :=
  path.toList.getLast? = some '/'

/-- The names of a path, without empty names and single dots. -/
def names (path : String) : List String :=
  ((split '/' path.toList).map String.ofList).filter fun name => name ≠ "" ∧ name ≠ "."

/-- Whether a relative path begins with a single dot as a name of its own. -/
def beginsWithDot (path : String) : Bool :=
  (split '/' path.toList).head? = some ['.']

/-- Whether a path is a bare name: relative, and with at most one name, where a dot at
the beginning counts. -/
def isBare (path : String) : Bool :=
  !isAbsolute path && (names path).length + (if beginsWithDot path then 1 else 0) ≤ 1

/-- Put a name behind a path. -/
def append (path name : String) : String :=
  if path.isEmpty || endsInSlash path then path ++ name else path ++ "/" ++ name

/-- What an absolute path begins with: two slashes are kept apart from any other number. -/
def rootOf (path : String) : String :=
  match path.toList with
  | '/' :: '/' :: '/' :: _ => "/"
  | ['/', '/'] => "//"
  | '/' :: '/' :: _ => "//"
  | _ => "/"

/-- The absolute path of the same file as `path` taken from `directory`.  Single dots and
repeated slashes are dropped; double dots and a slash at the end are kept, and symbolic
links are not followed. -/
def absolute (directory path : String) : String :=
  let base := if isAbsolute path then rootOf path else directory
  let named := (names path).foldl append base
  if endsInSlash path && !endsInSlash named then named ++ "/" else named

@[simp]
theorem split_nil (mark : Char) : split mark [] = [[]] :=
  rfl

theorem split_ne_nil (mark : Char) (characters : List Char) : split mark characters ≠ [] := by
  cases characters with
  | nil => simp
  | cons character rest =>
      unfold split
      split
      · simp
      · split <;> simp

/-- Cutting and putting together again changes nothing. -/
theorem joinWith_split (mark : Char) (characters : List Char) :
    joinWith mark (split mark characters) = characters := by
  induction characters with
  | nil => rfl
  | cons character rest ih =>
      unfold split
      split
      · next same =>
        cases splitEq : split mark rest with
        | nil => exact absurd splitEq (split_ne_nil mark rest)
        | cons piece pieces =>
            rw [splitEq] at ih
            simp [joinWith, ih, same]
      · cases splitEq : split mark rest with
        | nil => exact absurd splitEq (split_ne_nil mark rest)
        | cons piece pieces =>
            rw [splitEq] at ih
            cases pieces with
            | nil => simpa [joinWith] using ih
            | cons second others => simpa [joinWith] using ih

end CaseHarness.Path
