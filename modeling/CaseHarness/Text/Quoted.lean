/-!
# Shell-quoted words

A list of words is shown as one command line that a shell would split into the
same words.  A word is cut from the left into chunks.  Each chunk is as long as
one of three styles (bare, single quotes, double quotes) can show all of it,
and is written in the first style that can.
-/

namespace CaseHarness.Text.Quoted

/-- How a chunk of a word is written. -/
inductive Style where
  | bare
  | single
  | double
  deriving DecidableEq, Repr

/-- The styles that can show a character or a chunk. -/
structure Permits where
  bare : Bool
  single : Bool
  double : Bool
  deriving DecidableEq, Repr

/-- The characters that need no quotes. -/
def isBare (character : Char) : Bool :=
  character.isAlphanum || "+-./:@]_".toList.contains character

/-- The styles that can show a character inside a chunk. -/
def Permits.of (character : Char) : Permits where
  bare := isBare character
  single := !(['\x27', '^', '\\'].contains character)
  double := !(['\x60', '$', '!', '^'].contains character)

/-- The styles that can show a character that begins a chunk. -/
def Permits.first (character : Char) : Permits :=
  if character = '^' then ⟨false, true, false⟩ else Permits.of character

/-- The styles that both sides allow. -/
def Permits.meet (left right : Permits) : Permits where
  bare := left.bare && right.bare
  single := left.single && right.single
  double := left.double && right.double

/-- Whether any style is left. -/
def Permits.any (permits : Permits) : Bool :=
  permits.bare || permits.single || permits.double

/-- The preferred style of those allowed. -/
def Permits.style (permits : Permits) : Style :=
  if permits.bare then .bare else if permits.single then .single else .double

/-- A piece of a word together with the style it is written in. -/
structure Chunk where
  style : Style
  body : List Char
  deriving DecidableEq, Repr

/-- Cut the rest of a word, given the chunk that has been begun. -/
def chunksFrom (permits : Permits) (body : List Char) : List Char → List Chunk
  | [] => [⟨permits.style, body⟩]
  | character :: rest =>
      let narrowed := permits.meet (Permits.of character)
      if narrowed.any then
        chunksFrom narrowed (body ++ [character]) rest
      else
        ⟨permits.style, body⟩ :: chunksFrom (Permits.first character) [character] rest

/-- Cut a word into chunks. -/
def chunks : List Char → List Chunk
  | [] => []
  | character :: rest => chunksFrom (Permits.first character) [character] rest

/-- A character as it stands between double quotes. -/
def escapeDouble (character : Char) : List Char :=
  if ['$', '\x60', '"', '\\'].contains character then ['\\', character] else [character]

/-- The written form of a chunk. -/
def Chunk.text (chunk : Chunk) : List Char :=
  match chunk.style with
  | .bare => chunk.body
  | .single => ['\x27'] ++ chunk.body ++ ['\x27']
  | .double => ['"'] ++ chunk.body.flatMap escapeDouble ++ ['"']

/-- The written form of a word; the empty word is a pair of single quotes. -/
def word (characters : List Char) : List Char :=
  if characters = [] then ['\x27', '\x27'] else (chunks characters).flatMap Chunk.text

/-- Words written with one blank between them. -/
def joinWords : List (List Char) → List Char
  | [] => []
  | [only] => only
  | first :: rest => first ++ ' ' :: joinWords rest

/-- The command line that shows a list of words.  A NUL character has no written
form, so words that hold one are shown without any quotes. -/
def commandLine (words : List String) : String :=
  let characters := words.map String.toList
  String.ofList <| joinWords <|
    if characters.any fun written => written.contains '\x00' then characters
    else characters.map word

@[simp]
theorem chunks_nil : chunks [] = [] :=
  rfl

/-- Cutting loses nothing: the bodies of the chunks make up the word. -/
theorem flatMap_body_chunksFrom (permits : Permits) (body rest : List Char) :
    (chunksFrom permits body rest).flatMap Chunk.body = body ++ rest := by
  induction rest generalizing permits body with
  | nil => simp [chunksFrom]
  | cons character rest ih =>
      simp only [chunksFrom]
      split
      · simp [ih]
      · simp [ih]

/-- Cutting loses nothing: the bodies of the chunks make up the word. -/
theorem flatMap_body_chunks (characters : List Char) :
    (chunks characters).flatMap Chunk.body = characters := by
  cases characters with
  | nil => rfl
  | cons character rest => simp [chunks, flatMap_body_chunksFrom]

end CaseHarness.Text.Quoted
