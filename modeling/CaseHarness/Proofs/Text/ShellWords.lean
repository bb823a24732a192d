import CaseHarness.Text.Quoted

/-!
# Command lines are split into the words they show

A shell cuts a line into words at blanks.  Quotes and backslashes take the meaning of the
characters they cover, and pieces that touch belong to one word.  `split?` does just that: it
refuses a line in which a character would make a shell do anything else.

A chunk of a quoted word holds only characters that its style can show, so the splitter goes
through the written chunk and adds exactly its body to the word it is in, whatever was written
before.  Hence a command line is split into the words that it was made of.
-/

namespace CaseHarness.Text.ShellWords

/-- The characters between words. -/
def blanks : List Char :=
  [' ', '\t']

/-- The characters for which a shell does something when they stand outside quotes: operators,
expansions, patterns, assignments, comments, the history and reserved words. -/
def active : List Char :=
  ['|', '&', ';', '<', '>', '(', ')', '$', '\x60', '*', '?', '[', '#', '~', '=', '%', '!', '^',
    '\x7b', '\x7d', '\n']

/-- The characters for which a shell does something between double quotes. -/
def activeInDouble : List Char :=
  ['$', '\x60', '!']

/-- The characters that a backslash covers between double quotes. -/
def coverable : List Char :=
  ['$', '\x60', '"', '\\']

/-- What the next character means to the splitter. -/
inductive Mode where
  | bare
  /-- Behind a backslash outside quotes. -/
  | covered
  | single
  | double
  /-- Behind a backslash between double quotes. -/
  | coveredInDouble
  deriving DecidableEq, Repr

/-- A splitter on its way through a line. -/
structure Splitter where
  mode : Mode := .bare
  /-- The words that have ended. -/
  words : List (List Char) := []
  /-- The word that has begun. -/
  word : Option (List Char) := none
  deriving DecidableEq, Repr

namespace Splitter

def add (splitter : Splitter) (character : Char) : Splitter :=
  { splitter with word := some (splitter.word.getD [] ++ [character]) }

/-- Enter quotes, which begin a word even if nothing stands between them. -/
def enter (splitter : Splitter) (mode : Mode) : Splitter :=
  { splitter with mode := mode, word := some (splitter.word.getD []) }

/-- End the word that has begun. -/
def close (splitter : Splitter) : Splitter :=
  { splitter with words := splitter.words ++ splitter.word.toList, word := none }

/-- Go on by one character.  A newline behind a backslash disappears together with it. -/
def step (splitter : Splitter) (character : Char) : Option Splitter :=
  match splitter.mode with
  | .bare =>
      if character ∈ blanks then some splitter.close
      else if character = '\x27' then some (splitter.enter .single)
      else if character = '"' then some (splitter.enter .double)
      else if character = '\\' then some { splitter with mode := .covered }
      else if character ∈ active then none
      else some (splitter.add character)
  | .covered =>
      let bare := { splitter with mode := .bare }
      some (if character = '\n' then bare else bare.add character)
  | .single =>
      some (if character = '\x27' then { splitter with mode := .bare } else splitter.add character)
  | .double =>
      if character = '"' then some { splitter with mode := .bare }
      else if character = '\\' then some { splitter with mode := .coveredInDouble }
      else if character ∈ activeInDouble then none
      else some (splitter.add character)
  | .coveredInDouble =>
      let double := { splitter with mode := .double }
      some (if character = '\n' then double
        else if character ∈ coverable then double.add character
        else (double.add '\\').add character)

def scan (splitter : Splitter) (line : List Char) : Option Splitter :=
  line.foldlM step splitter

end Splitter

/-- The words of a line, if quotes and backslashes in it are complete and nothing in it asks a
shell for more than words. -/
def split? (line : String) : Option (List String) :=
  ((Splitter.scan {} line.toList).filter fun splitter => splitter.mode = .bare).map
    fun splitter => splitter.close.words.map String.ofList

namespace Splitter

open Quoted (Chunk Permits isBare escapeDouble)

variable {words : List (List Char)} {body : List Char}

@[simp]
theorem scan_nil (splitter : Splitter) : splitter.scan [] = some splitter :=
  rfl

theorem scan_cons (splitter : Splitter) (character : Char) (rest : List Char) :
    splitter.scan (character :: rest) = (splitter.step character).bind fun next => next.scan rest :=
  rfl

theorem scan_append (splitter : Splitter) (first second : List Char) :
    splitter.scan (first ++ second) = (splitter.scan first).bind fun next => next.scan second :=
  List.foldlM_append

/-- None of the characters that mean something to the splitter is written bare. -/
theorem not_special_of_isBare {character : Char} (bare : isBare character = true) :
    character ∉ blanks ++ ['\x27', '"', '\\'] ++ active := by
  intro special
  have noneBare : (blanks ++ ['\x27', '"', '\\'] ++ active).all (!isBare ·) = true := by decide
  have notBare := List.all_eq_true.mp noneBare character special
  rw [bare] at notBare
  cases notBare

theorem step_bare {character : Char} (bare : isBare character = true)
    (word : Option (List Char)) :
    step ⟨.bare, words, word⟩ character =
      some ⟨.bare, words, some (word.getD [] ++ [character])⟩ := by
  have plain := not_special_of_isBare bare
  simp only [List.mem_append, List.mem_cons, List.not_mem_nil, or_false, not_or] at plain
  obtain ⟨⟨notBlank, notSingle, notDouble, notBackslash⟩, notActive⟩ := plain
  simp [step, notBlank, notSingle, notDouble, notBackslash, notActive, add]

theorem scan_bare (bare : ∀ character ∈ body, isBare character = true) (word : List Char) :
    scan ⟨.bare, words, some word⟩ body = some ⟨.bare, words, some (word ++ body)⟩ := by
  induction body generalizing word with
  | nil => simp
  | cons character body ih =>
      have others : ∀ other ∈ body, isBare other = true := fun other mem =>
        bare other (List.mem_cons_of_mem _ mem)
      rw [scan_cons, step_bare (bare character List.mem_cons_self), Option.bind_some,
        Option.getD_some, ih others]
      simp

theorem scan_single (noQuote : '\x27' ∉ body) (word : List Char) :
    scan ⟨.single, words, some word⟩ body = some ⟨.single, words, some (word ++ body)⟩ := by
  induction body generalizing word with
  | nil => simp
  | cons character body ih =>
      simp only [List.mem_cons, not_or] at noQuote
      obtain ⟨notQuote, others⟩ := noQuote
      have stepEq : step ⟨.single, words, some word⟩ character =
          some ⟨.single, words, some (word ++ [character])⟩ := by
        simp [step, Ne.symm notQuote, add]
      rw [scan_cons, stepEq, Option.bind_some, ih others]
      simp

/-- A character that may stand between double quotes is added, with or without its backslash. -/
theorem scan_escapeDouble {character : Char} (passive : character ∉ activeInDouble)
    (word : List Char) :
    scan ⟨.double, words, some word⟩ (escapeDouble character) =
      some ⟨.double, words, some (word ++ [character])⟩ := by
  simp only [activeInDouble, List.mem_cons, List.not_mem_nil, or_false, not_or] at passive
  obtain ⟨notDollar, notBacktick, notBang⟩ := passive
  by_cases isQuote : character = '"'
  · subst isQuote
    rfl
  · by_cases isBackslash : character = '\\'
    · subst isBackslash
      rfl
    · have escapeEq : escapeDouble character = [character] := by
        simp [escapeDouble, notDollar, notBacktick, isQuote, isBackslash]
      rw [escapeEq, scan_cons]
      simp [step, isQuote, isBackslash, activeInDouble, notDollar, notBacktick, notBang, add]

theorem scan_double (passive : ∀ character ∈ body, character ∉ activeInDouble)
    (word : List Char) :
    scan ⟨.double, words, some word⟩ (body.flatMap escapeDouble) =
      some ⟨.double, words, some (word ++ body)⟩ := by
  induction body generalizing word with
  | nil => simp
  | cons character body ih =>
      have others : ∀ other ∈ body, other ∉ activeInDouble := fun other mem =>
        passive other (List.mem_cons_of_mem _ mem)
      rw [List.flatMap_cons, scan_append,
        scan_escapeDouble (passive character List.mem_cons_self), Option.bind_some, ih others]
      simp

end Splitter

open Quoted (Chunk Permits Style isBare chunksFrom chunks joinWords commandLine)

/-- Every style that is permitted can show all characters of a body. -/
structure Sound (permits : Permits) (body : List Char) : Prop where
  bare : permits.bare = true → ∀ character ∈ body, isBare character = true
  single : permits.single = true → '\x27' ∉ body
  double : permits.double = true → ∀ character ∈ body, character ∉ activeInDouble

/-- A chunk is not empty, and its style can show all its characters. -/
structure Fits (chunk : Chunk) : Prop where
  nonempty : chunk.body ≠ []
  bare : chunk.style = .bare → ∀ character ∈ chunk.body, isBare character = true
  single : chunk.style = .single → '\x27' ∉ chunk.body
  double : chunk.style = .double → ∀ character ∈ chunk.body, character ∉ activeInDouble

section Chunks

variable {permits : Permits} {body : List Char} {character : Char}

theorem sound_of (character : Char) : Sound (Permits.of character) [character] where
  bare := by
    intro isPermitted other mem
    rw [List.mem_singleton.mp mem]
    exact isPermitted
  single := by
    intro isPermitted mem
    rw [← List.mem_singleton.mp mem] at isPermitted
    exact absurd isPermitted (by decide)
  double := by
    intro isPermitted other mem
    rw [List.mem_singleton.mp mem]
    intro isActive
    simp only [activeInDouble, List.mem_cons, List.not_mem_nil, or_false] at isActive
    rcases isActive with rfl | rfl | rfl <;> exact absurd isPermitted (by decide)

theorem sound_first (character : Char) : Sound (Permits.first character) [character] := by
  unfold Permits.first
  split
  · next isCaret =>
    subst isCaret
    exact ⟨by simp, by simp, by simp⟩
  · exact sound_of character

/-- Some style can show any character at the beginning of a chunk. -/
theorem any_first (character : Char) : (Permits.first character).any = true := by
  unfold Permits.first
  split
  · rfl
  · next notCaret =>
    by_cases isQuote : character = '\x27'
    · subst isQuote
      decide
    · by_cases isBackslash : character = '\\'
      · subst isBackslash
        decide
      · simp [Permits.any, Permits.of, notCaret, isQuote, isBackslash]

theorem Sound.meet (sound : Sound permits body) (character : Char) :
    Sound (permits.meet (Permits.of character)) (body ++ [character]) := by
  have last := sound_of character
  constructor
  · intro both other mem
    obtain ⟨left, right⟩ := Bool.and_eq_true_iff.mp both
    rcases List.mem_append.mp mem with earlier | now
    · exact sound.bare left other earlier
    · exact last.bare right other now
  · intro both mem
    obtain ⟨left, right⟩ := Bool.and_eq_true_iff.mp both
    rcases List.mem_append.mp mem with earlier | now
    · exact sound.single left earlier
    · exact last.single right now
  · intro both other mem
    obtain ⟨left, right⟩ := Bool.and_eq_true_iff.mp both
    rcases List.mem_append.mp mem with earlier | now
    · exact sound.double left other earlier
    · exact last.double right other now

theorem Sound.fits (sound : Sound permits body) (left : permits.any = true)
    (nonempty : body ≠ []) : Fits ⟨permits.style, body⟩ := by
  rcases permits with ⟨bare, single, double⟩
  refine ⟨nonempty, ?_, ?_, ?_⟩
  · intro styleEq
    refine sound.bare ?_
    cases bare
    · cases single <;> cases styleEq
    · rfl
  · intro styleEq
    refine sound.single ?_
    cases bare
    · cases single
      · cases styleEq
      · rfl
    · cases styleEq
  · intro styleEq
    refine sound.double ?_
    cases bare
    · cases single
      · simpa [Permits.any] using left
      · cases styleEq
    · cases styleEq

theorem fits_of_mem_chunksFrom {rest : List Char} (sound : Sound permits body)
    (left : permits.any = true) (nonempty : body ≠ []) :
    ∀ chunk ∈ chunksFrom permits body rest, Fits chunk := by
  induction rest generalizing permits body with
  | nil =>
      intro chunk mem
      rw [List.mem_singleton.mp mem]
      exact sound.fits left nonempty
  | cons character rest ih =>
      intro chunk mem
      unfold chunksFrom at mem
      dsimp only at mem
      split at mem
      · next narrowed => exact ih (sound.meet character) narrowed (by simp) chunk mem
      · rcases List.mem_cons.mp mem with rfl | later
        · exact sound.fits left nonempty
        · exact ih (sound_first character) (any_first character) (by simp) chunk later

theorem fits_of_mem_chunks (characters : List Char) :
    ∀ chunk ∈ chunks characters, Fits chunk := by
  cases characters with
  | nil => simp [chunks]
  | cons character rest =>
      exact fits_of_mem_chunksFrom (sound_first character) (any_first character) (by simp)

end Chunks

namespace Splitter

variable {words : List (List Char)}

/-- A written chunk adds its body to the word it stands in. -/
theorem scan_chunk {chunk : Chunk} (fits : Fits chunk) (word : Option (List Char)) :
    scan ⟨.bare, words, word⟩ chunk.text =
      some ⟨.bare, words, some (word.getD [] ++ chunk.body)⟩ := by
  rcases chunk with ⟨style, body⟩
  cases style with
  | bare =>
      have bare := fits.bare rfl
      cases body with
      | nil => exact absurd rfl fits.nonempty
      | cons character body =>
          have others : ∀ other ∈ body, isBare other = true := fun other mem =>
            bare other (List.mem_cons_of_mem _ mem)
          have first : step ⟨.bare, words, word⟩ character =
              some ⟨.bare, words, some (word.getD [] ++ [character])⟩ :=
            step_bare (bare character List.mem_cons_self) word
          simp only [Chunk.text]
          rw [scan_cons, first, Option.bind_some, scan_bare others]
          simp
  | single =>
      have opened : step ⟨.bare, words, word⟩ '\x27' =
          some ⟨.single, words, some (word.getD [])⟩ := rfl
      change scan ⟨.bare, words, word⟩ ('\x27' :: (body ++ ['\x27'])) = _
      rw [scan_cons, opened, Option.bind_some, scan_append, scan_single (fits.single rfl)]
      rfl
  | double =>
      have opened : step ⟨.bare, words, word⟩ '"' =
          some ⟨.double, words, some (word.getD [])⟩ := rfl
      change scan ⟨.bare, words, word⟩ ('"' :: (body.flatMap Quoted.escapeDouble ++ ['"'])) = _
      rw [scan_cons, opened, Option.bind_some, scan_append, scan_double (fits.double rfl)]
      rfl

theorem scan_chunks {pieces : List Chunk} (fits : ∀ chunk ∈ pieces, Fits chunk)
    (word : List Char) :
    scan ⟨.bare, words, some word⟩ (pieces.flatMap Chunk.text) =
      some ⟨.bare, words, some (word ++ pieces.flatMap Chunk.body)⟩ := by
  induction pieces generalizing word with
  | nil => simp
  | cons chunk pieces ih =>
      have others : ∀ other ∈ pieces, Fits other := fun other mem =>
        fits other (List.mem_cons_of_mem _ mem)
      rw [List.flatMap_cons, scan_append, scan_chunk (fits chunk List.mem_cons_self),
        Option.bind_some, Option.getD_some, ih others]
      simp

/-- The written form of a word is read as that word. -/
theorem scan_word (characters : List Char) :
    scan ⟨.bare, words, none⟩ (Quoted.word characters) =
      some ⟨.bare, words, some characters⟩ := by
  unfold Quoted.word
  split
  · next empty =>
    subst empty
    rfl
  · next nonempty =>
    have fits := fits_of_mem_chunks characters
    have bodies := Quoted.flatMap_body_chunks characters
    cases pieces : chunks characters with
    | nil =>
        rw [pieces] at bodies
        exact absurd bodies.symm nonempty
    | cons chunk others =>
        rw [pieces] at fits bodies
        have first : scan ⟨.bare, words, none⟩ chunk.text =
            some ⟨.bare, words, some ([] ++ chunk.body)⟩ :=
          scan_chunk (fits chunk List.mem_cons_self) none
        have rest : ∀ other ∈ others, Fits other := fun other mem =>
          fits other (List.mem_cons_of_mem _ mem)
        rw [List.flatMap_cons, scan_append, first, Option.bind_some, List.nil_append,
          scan_chunks rest, ← List.flatMap_cons, bodies]

/-- Written words with blanks between them are read as these words. -/
theorem scan_joinWords (words shown : List (List Char)) :
    ∃ splitter, scan ⟨.bare, words, none⟩ (joinWords (shown.map Quoted.word)) = some splitter ∧
      splitter.mode = .bare ∧ splitter.close.words = words ++ shown := by
  induction shown generalizing words with
  | nil => exact ⟨⟨.bare, words, none⟩, rfl, rfl, rfl⟩
  | cons first others ih =>
      cases others with
      | nil =>
          refine ⟨⟨.bare, words, some first⟩, ?_, rfl, rfl⟩
          exact scan_word first
      | cons second others =>
          obtain ⟨splitter, scans, mode, closed⟩ := ih (words ++ [first])
          refine ⟨splitter, ?_, mode, ?_⟩
          · have blank : step ⟨.bare, words, some first⟩ ' ' =
                some ⟨.bare, words ++ [first], none⟩ := rfl
            change scan ⟨.bare, words, none⟩ (Quoted.word first ++
              ' ' :: joinWords ((second :: others).map Quoted.word)) = some splitter
            rw [scan_append, scan_word, Option.bind_some, scan_cons, blank, Option.bind_some]
            exact scans
          · rw [closed]
            simp

end Splitter

/-- A command line without NUL characters is split into the words that it shows. -/
theorem split?_commandLine {words : List String} (clean : ∀ word ∈ words, '\x00' ∉ word.toList) :
    split? (commandLine words) = some words := by
  have quoted : ((words.map String.toList).any fun written => written.contains '\x00') = false := by
    simpa using clean
  obtain ⟨splitter, scans, mode, closed⟩ :=
    Splitter.scan_joinWords [] (words.map String.toList)
  have lineEq : (commandLine words).toList =
      joinWords ((words.map String.toList).map Quoted.word) := by
    simp only [commandLine, quoted, String.toList_ofList, Bool.false_eq_true, if_false]
  rw [split?, lineEq, scans]
  simp [Option.filter, mode, closed]

end CaseHarness.Text.ShellWords
