import CaseHarness.Message

/-!
# Languages

The harness speaks two languages, each known by a tag.  A tag that a user asks
for is first resolved to a bundled one (`Language.resolve`).  The tag that is in
force at some moment is looked up when a message is rendered; a tag that is not
bundled is shortened from the right until one is found, and English is the last
resort (`Language.lookup`).
-/

namespace CaseHarness

/-- A language with a catalogue of messages. -/
inductive Language where
  | english
  | chinese
  deriving DecidableEq, Repr

namespace Language

def tag : Language → String
  | english => "en"
  | chinese => "zh-CN"

/-- The tags of all languages, in alphabetical order. -/
def bundled : List String :=
  [english, chinese].map tag

/-- The tag that is used when nothing else fits. -/
def fallbackTag : String :=
  "en"

def ofTag? (wanted : String) : Option Language :=
  [english, chinese].find? fun language => language.tag = wanted

/-- The part of a tag before its first hyphen. -/
def primary (tag : String) : List Char :=
  tag.toList.takeWhile fun character => character ≠ '-'

/-- The part of a request before its first hyphen or underscore. -/
def requestedPrimary (requested : String) : List Char :=
  requested.toList.takeWhile fun character => character ≠ '-' ∧ character ≠ '_'

/-- The available tag that serves a request best: the request itself, else the first
tag of the same primary language, else English. -/
def resolveAmong (available : List String) (requested : String) : String :=
  if requested ∈ available then requested
  else (available.find? fun tag => primary tag = requestedPrimary requested).getD fallbackTag

/-- The bundled tag that serves a request best. -/
def resolve (requested : String) : String :=
  resolveAmong bundled requested

/-- Remove every `-x` at the end of a tag, given and returned in reverse. -/
def dropExtensionMarks : List Char → List Char
  | 'x' :: '-' :: rest => dropExtensionMarks rest
  | characters => characters

/-- Remove the last hyphen of a tag and what follows it, and then every `-x` at the
end; the tag is given and returned in reverse. -/
def shorten? (reversed : List Char) : Option (List Char) :=
  match reversed.dropWhile fun character => character ≠ '-' with
  | [] => none
  | _ :: rest => some (dropExtensionMarks rest)

/-- Look a tag up, shortening it at most `tries` times; the tag is given in reverse. -/
def lookupReversed (reversed : List Char) : Nat → Language
  | 0 => english
  | tries + 1 =>
      match ofTag? (String.ofList reversed.reverse) with
      | some language => language
      | none =>
          match shorten? reversed with
          | some shorter => lookupReversed shorter tries
          | none => english

/-- The language that messages are rendered in while a tag is in force. -/
def lookup (tag : String) : Language :=
  lookupReversed tag.toList.reverse (tag.length + 1)

def render : Language → Message → String
  | english => Message.english
  | chinese => Message.chinese

theorem mem_bundled_iff {tag : String} : tag ∈ bundled ↔ tag = "en" ∨ tag = "zh-CN" := by
  simp [bundled, Language.tag]

/-- A tag of a bundled language is found directly. -/
@[simp]
theorem lookup_tag (language : Language) : lookup language.tag = language := by
  cases language <;> decide

end Language

/-- The text of a message while a tag is in force. -/
def Message.text (message : Message) (tag : String) : String :=
  (Language.lookup tag).render message

/-- The environment variables that the harness looks at. -/
structure Environment where
  language : Option String := none
  lcAll : Option String := none
  lcMessages : Option String := none
  lang : Option String := none
  noColor : Option String := none
  cliColor : Option String := none
  cliColorForce : Option String := none
  deriving DecidableEq, Repr

namespace Environment

/-- The tag in the value of a locale variable: encoding and modifier are dropped,
and underscores become hyphens. -/
def tagOfLocale (locale : List Char) : String :=
  String.ofList <|
    (locale.takeWhile fun character => character ≠ '.' ∧ character ≠ '@').map
      fun character => if character = '_' then '-' else character

/-- The first locale that the environment names.  A variable that is unset or empty
is skipped, and of a list of languages the first counts. -/
def locale? (environment : Environment) : Option String :=
  let solid := fun value : Option String => value.filter fun text => !text.isEmpty
  let preferred := (solid environment.language).map fun list =>
    list.toList.takeWhile fun character => character ≠ ':'
  let single := ((solid environment.lcAll).or ((solid environment.lcMessages).or
    (solid environment.lang))).map String.toList
  (preferred.or single).map tagOfLocale

/-- The bundled tag that suits the environment. -/
def detect (environment : Environment) : String :=
  Language.resolve (environment.locale?.getD Language.fallbackTag)

/-- Whether text is coloured although it does not go to a terminal. -/
def forcesColor (environment : Environment) : Bool :=
  match environment.cliColorForce with
  | some value => value ≠ "0"
  | none => false

/-- Whether the help page is styled although it does not go to a terminal: colours are
forced and not refused.  Here a variable that is empty says nothing, whatever else it holds. -/
def stylesHelp (environment : Environment) : Bool :=
  let holdsText := fun value : Option String => value.any fun text => !text.isEmpty
  holdsText environment.cliColorForce && !(holdsText environment.noColor)

end Environment

end CaseHarness
