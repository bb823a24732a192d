import CaseHarness.Json
import CaseHarness.Proofs.Text.Numeral

/-!
# Documents as tokens

A JSON document (RFC 8259) is a sequence of tokens with blanks between them.  The lexer goes
through a document one character at a time and remembers the token it is in the middle of.  It
knows every escape of the grammar and refuses every character that the grammar has no place for.
`Json` has whole numbers only, so a number with a fraction or an exponent is refused too.

A written value, in any layout whose marks stand among blanks, is the tokens of the value: each
part of it is read to its own tokens wherever it stands, as long as no two words touch.
-/

namespace CaseHarness.Json

open Text.Numeral (digits? digitIn? decimal signedDecimal)

/-- The characters between tokens. -/
def blanks : List Char :=
  [' ', '\t', '\n', '\r']

def IsGap (text : List Char) : Prop :=
  ∀ character ∈ text, character ∈ blanks

inductive Token where
  | openList
  | closeList
  | openObject
  | closeObject
  | comma
  | colon
  | null
  | bool (value : Bool)
  | number (value : Int)
  | text (value : String)
  deriving DecidableEq, Repr

namespace Token

/-- The tokens of a single character. -/
def ofMark? : Char → Option Token
  | '[' => some openList
  | ']' => some closeList
  | '\x7b' => some openObject
  | '\x7d' => some closeObject
  | ',' => some comma
  | ':' => some colon
  | _ => none

/-- Whether a character may stand in a literal name or a number. -/
def isWordCharacter (character : Char) : Bool :=
  character.isAlphanum || character ∈ ['+', '-', '.']

/-- Digits without a leading zero. -/
def natural? : List Char → Option Nat
  | ['0'] => some 0
  | '0' :: _ => none
  | characters => digits? characters

/-- Digits behind at most a minus sign. -/
def integer? : List Char → Option Int
  | '-' :: characters => (natural? characters).map fun value => -Int.ofNat value
  | characters => (natural? characters).map Int.ofNat

/-- The token of a literal name or a number. -/
def ofWord? (word : List Char) : Option Token :=
  if word = "null".toList then some null
  else if word = "true".toList then some (bool true)
  else if word = "false".toList then some (bool false)
  else (integer? word).map number

end Token

/-- Where the lexer is in a text. -/
inductive Place where
  | plain
  /-- Behind a backslash. -/
  | escape
  /-- Among the digits of a code unit, perhaps behind the first unit of a pair. -/
  | code (high : Option Nat) (value missing : Nat)
  /-- Behind the first unit of a pair. -/
  | pair (high : Nat)
  /-- Behind the first unit of a pair and a backslash. -/
  | pairEscape (high : Nat)
  deriving DecidableEq, Repr

/-- The token that the lexer is in the middle of. -/
inductive Mode where
  | idle
  | word (taken : List Char)
  | text (taken : List Char) (place : Place)
  deriving DecidableEq, Repr

/-- What a character behind a backslash stands for. -/
def ofEscape? : Char → Option Char
  | '"' => some '"'
  | '\\' => some '\\'
  | '/' => some '/'
  | 'b' => some '\x08'
  | 'f' => some '\x0c'
  | 'n' => some '\n'
  | 'r' => some '\r'
  | 't' => some '\t'
  | _ => none

/-- Go on behind a complete code unit: it is a character, begins a pair or completes one. -/
def takeUnit (taken : List Char) (high : Option Nat) (value : Nat) : Option Mode :=
  match high with
  | none =>
      if value.isValidChar then some (.text (taken ++ [Char.ofNat value]) .plain)
      else if value < 0xdc00 then some (.text taken (.pair value))
      else none
  | some high =>
      if 0xdc00 ≤ value ∧ value < 0xe000 then
        let character := Char.ofNat (0x10000 + (high - 0xd800) * 0x400 + (value - 0xdc00))
        some (.text (taken ++ [character]) .plain)
      else none

/-- A lexer on its way through a document. -/
structure Lexer where
  /-- The tokens that have ended. -/
  tokens : List Token := []
  mode : Mode := .idle
  deriving DecidableEq, Repr

namespace Lexer

open Token (ofMark? ofWord? isWordCharacter)

/-- Go on by a character that continues no token. -/
def begin (tokens : List Token) (character : Char) : Option Lexer :=
  if character ∈ blanks then some ⟨tokens, .idle⟩
  else if character = '"' then some ⟨tokens, .text [] .plain⟩
  else if isWordCharacter character then some ⟨tokens, .word [character]⟩
  else (ofMark? character).map fun token => ⟨tokens ++ [token], .idle⟩

/-- Go on by a character of a text; control characters have to be escaped. -/
def stepText (tokens : List Token) (taken : List Char) (place : Place) (character : Char) :
    Option Lexer :=
  match place with
  | .plain =>
      if character = '"' then some ⟨tokens ++ [.text (String.ofList taken)], .idle⟩
      else if character = '\\' then some ⟨tokens, .text taken .escape⟩
      else if character.toNat < 0x20 then none
      else some ⟨tokens, .text (taken ++ [character]) .plain⟩
  | .escape =>
      if character = 'u' then some ⟨tokens, .text taken (.code none 0 4)⟩
      else (ofEscape? character).map fun meant => ⟨tokens, .text (taken ++ [meant]) .plain⟩
  | .code high value missing =>
      (digitIn? 16 character).bind fun digit =>
        if missing ≤ 1 then (takeUnit taken high (value * 16 + digit)).map fun mode =>
          ⟨tokens, mode⟩
        else some ⟨tokens, .text taken (.code high (value * 16 + digit) (missing - 1))⟩
  | .pair high =>
      if character = '\\' then some ⟨tokens, .text taken (.pairEscape high)⟩ else none
  | .pairEscape high =>
      if character = 'u' then some ⟨tokens, .text taken (.code (some high) 0 4)⟩ else none

/-- The tokens of a document that ends here. -/
def finish (lexer : Lexer) : Option (List Token) :=
  match lexer.mode with
  | .idle => some lexer.tokens
  | .word taken => (ofWord? taken).map fun token => lexer.tokens ++ [token]
  | .text _ _ => none

def step (lexer : Lexer) (character : Char) : Option Lexer :=
  match lexer.mode with
  | .idle => begin lexer.tokens character
  | .word taken =>
      if isWordCharacter character then some ⟨lexer.tokens, .word (taken ++ [character])⟩
      else lexer.finish.bind fun tokens => begin tokens character
  | .text taken place => stepText lexer.tokens taken place character

def scan (lexer : Lexer) (document : List Char) : Option Lexer :=
  document.foldlM step lexer

end Lexer

/-- The tokens of a document. -/
def tokens? (document : List Char) : Option (List Token) :=
  (Lexer.scan {} document).bind Lexer.finish

mutual

/-- The tokens of a value. -/
def tokens : Json → List Token
  | null => [.null]
  | bool value => [.bool value]
  | number value => [.number value]
  | text value => [.text value]
  | list [] => [.openList, .closeList]
  | list (item :: items) => .openList :: (tokens item ++ itemTokens items ++ [.closeList])
  | object [] => [.openObject, .closeObject]
  | object ((key, value) :: fields) =>
      .openObject :: .text key :: .colon ::
        (tokens value ++ fieldTokens fields ++ [.closeObject])

/-- The tokens of the items after the first. -/
def itemTokens : List Json → List Token
  | [] => []
  | item :: items => .comma :: (tokens item ++ itemTokens items)

/-- The tokens of the fields after the first. -/
def fieldTokens : List (String × Json) → List Token
  | [] => []
  | (key, value) :: fields => .comma :: .text key :: .colon :: (tokens value ++ fieldTokens fields)

end

namespace Lexer

open Token (ofMark? ofWord? isWordCharacter)

variable {lexer : Lexer} {before parsed first second : List Token} {left right : List Char}

@[simp]
theorem scan_nil (lexer : Lexer) : lexer.scan [] = some lexer :=
  rfl

theorem scan_cons (lexer : Lexer) (character : Char) (rest : List Char) :
    lexer.scan (character :: rest) = (lexer.step character).bind fun next => next.scan rest :=
  rfl

theorem scan_append (lexer : Lexer) (left right : List Char) :
    lexer.scan (left ++ right) = (lexer.scan left).bind fun next => next.scan right :=
  List.foldlM_append

/-- A word that is complete has no part in what follows it. -/
theorem step_of_finish {character : Char} (finished : lexer.finish = some parsed)
    (parted : isWordCharacter character = false) :
    lexer.step character = step ⟨parsed, .idle⟩ character := by
  obtain ⟨tokens, mode⟩ := lexer
  cases mode with
  | idle =>
      cases finished
      rfl
  | word taken => simp [step, parted, finished]
  | text taken place => cases finished

/-- Wherever the part stands, it is read to these tokens, the last of which may still be a word
that has not ended. -/
def Reads (part : List Char) (tokens : List Token) : Prop :=
  ∀ before, ∃ lexer, scan ⟨before, .idle⟩ part = some lexer ∧
    lexer.finish = some (before ++ tokens)

/-- Wherever the part stands, it is read to these tokens, and all of them have ended. -/
def Settles (part : List Char) (tokens : List Token) : Prop :=
  ∀ before, scan ⟨before, .idle⟩ part = some ⟨before ++ tokens, .idle⟩

/-- The part may also stand right behind a word. -/
structure Follows (part : List Char) (tokens : List Token) : Prop where
  settles : Settles part tokens
  parted : ∃ character rest, part = character :: rest ∧ isWordCharacter character = false

theorem Settles.reads (settles : Settles left first) : Reads left first := fun before =>
  ⟨⟨before ++ first, .idle⟩, settles before, rfl⟩

theorem Settles.append (settles : Settles left first) (settlesToo : Settles right second) :
    Settles (left ++ right) (first ++ second) := by
  intro before
  rw [scan_append, settles before, Option.bind_some, settlesToo, List.append_assoc]

theorem Reads.append_follows (reads : Reads left first) (follows : Follows right second) :
    Settles (left ++ right) (first ++ second) := by
  intro before
  obtain ⟨lexer, scans, finished⟩ := reads before
  obtain ⟨settles, character, rest, rfl, parted⟩ := follows
  rw [scan_append, scans, Option.bind_some, scan_cons, step_of_finish finished parted,
    ← scan_cons, settles, List.append_assoc]

theorem Follows.append (follows : Follows left first) (settles : Settles right second) :
    Follows (left ++ right) (first ++ second) := by
  obtain ⟨settlesToo, character, rest, rfl, parted⟩ := follows
  exact ⟨settlesToo.append settles, character, rest ++ right, rfl, parted⟩

theorem settles_gap {gap : List Char} (isGap : IsGap gap) : Settles gap [] := by
  intro before
  rw [List.append_nil]
  induction gap with
  | nil => rfl
  | cons character gap ih =>
      have stepEq : step ⟨before, .idle⟩ character = some ⟨before, .idle⟩ := by
        simp [step, begin, isGap character List.mem_cons_self]
      rw [scan_cons, stepEq, Option.bind_some]
      exact ih fun other mem => isGap other (List.mem_cons_of_mem _ mem)

theorem follows_mark {character : Char} {token : Token} (mark : ofMark? character = some token) :
    Follows [character] [token] := by
  unfold ofMark? at mark
  split at mark <;> cases mark <;> exact ⟨fun _ => rfl, _, [], rfl, rfl⟩

end Lexer

namespace Token

theorem natural?_decimal (value : Nat) : natural? (decimal value).toList = some value := by
  rcases Nat.eq_zero_or_pos value with rfl | positive
  · decide
  · obtain ⟨first, rest, written, nonzero⟩ := Text.Numeral.decimal_eq_cons positive
    have worth := Text.Numeral.digits?_decimal value
    rw [written] at worth ⊢
    unfold natural?
    split
    · next same =>
      cases same
      exact absurd rfl nonzero
    · next same =>
      cases same
      exact absurd rfl nonzero
    · exact worth

theorem integer?_signedDecimal (value : Int) :
    integer? (signedDecimal value).toList = some value := by
  cases value with
  | ofNat value =>
      change integer? (decimal value).toList = some (Int.ofNat value)
      unfold integer?
      split
      · next written =>
        have sign : '-' ∈ (decimal value).toList := by simp [written]
        exact absurd (Text.Numeral.isDigit_of_mem_decimal sign) (by decide)
      · rw [natural?_decimal]
        rfl
  | negSucc value =>
      have written :
          (signedDecimal (.negSucc value)).toList = '-' :: (decimal (value + 1)).toList := by
        simp [signedDecimal]
      rw [written, integer?, natural?_decimal]
      rfl

theorem ofWord?_of_integer? {word : List Char} {value : Int} (whole : integer? word = some value) :
    ofWord? word = some (.number value) := by
  have noName : ∀ name ∈ ["null".toList, "true".toList, "false".toList], word ≠ name := by
    rintro name mem rfl
    have none : ∀ other ∈ ["null".toList, "true".toList, "false".toList],
        integer? other = none := by decide
    rw [none _ mem] at whole
    cases whole
  simp only [List.mem_cons, List.not_mem_nil, or_false, forall_eq_or_imp, forall_eq] at noName
  obtain ⟨notNull, notTrue, notFalse⟩ := noName
  rw [ofWord?, if_neg notNull, if_neg notTrue, if_neg notFalse, whole]
  rfl

theorem isWordCharacter_of_mem_blanks {character : Char} (mem : character ∈ blanks) :
    isWordCharacter character = false := by
  simp only [blanks, List.mem_cons, List.not_mem_nil, or_false] at mem
  rcases mem with rfl | rfl | rfl | rfl <;> rfl

theorem isWordCharacter_of_mem_signedDecimal {value : Int} {character : Char}
    (mem : character ∈ (signedDecimal value).toList) : isWordCharacter character = true := by
  have ofDigit (digit : character.isDigit = true) : isWordCharacter character = true := by
    simp [isWordCharacter, Char.isAlphanum, digit]
  cases value with
  | ofNat value => exact ofDigit (Text.Numeral.isDigit_of_mem_decimal mem)
  | negSucc value =>
      rw [signedDecimal, String.toList_append] at mem
      rcases List.mem_append.mp mem with sign | digit
      · rw [List.mem_singleton.mp sign]
        decide
      · exact ofDigit (Text.Numeral.isDigit_of_mem_decimal digit)

end Token

theorem digitIn?_hexDigit {value : Nat} (small : value < 16) :
    digitIn? 16 (hexDigit value) = some value := by
  have each : ∀ value < 16, digitIn? 16 (hexDigit value) = some value := by decide
  exact each value small

namespace Lexer

open Token (ofWord? isWordCharacter isWordCharacter_of_mem_blanks)

variable {before : List Token}

theorem scan_word (begun : List Char) {rest : List Char}
    (wordly : rest.all isWordCharacter = true) :
    scan ⟨before, .word begun⟩ rest = some ⟨before, .word (begun ++ rest)⟩ := by
  induction rest generalizing begun with
  | nil => simp
  | cons character rest ih =>
      rw [List.all_cons, Bool.and_eq_true] at wordly
      obtain ⟨first, others⟩ := wordly
      have stepEq : step ⟨before, .word begun⟩ character =
          some ⟨before, .word (begun ++ [character])⟩ := by
        simp [step, first]
      rw [scan_cons, stepEq, Option.bind_some, ih _ others]
      simp

theorem reads_word {word : List Char} {token : Token} (meant : ofWord? word = some token)
    (wordly : word.all isWordCharacter = true) : Reads word [token] := by
  intro before
  cases word with
  | nil =>
      have none : ofWord? [] = none := by decide
      rw [none] at meant
      cases meant
  | cons character rest =>
      rw [List.all_cons, Bool.and_eq_true] at wordly
      obtain ⟨first, others⟩ := wordly
      have notBlank : character ∉ blanks := by
        intro blank
        rw [isWordCharacter_of_mem_blanks blank] at first
        cases first
      have notQuote : character ≠ '"' := by
        rintro rfl
        cases first
      have stepEq : step ⟨before, .idle⟩ character = some ⟨before, .word [character]⟩ := by
        simp [step, begin, notQuote, notBlank, first]
      refine ⟨⟨before, .word (character :: rest)⟩, ?_, by simp [finish, meant]⟩
      rw [scan_cons, stepEq, Option.bind_some]
      exact scan_word [character] others

theorem reads_number (value : Int) : Reads (signedDecimal value).toList [.number value] :=
  reads_word (Token.ofWord?_of_integer? (Token.integer?_signedDecimal value))
    (List.all_eq_true.mpr fun _ => Token.isWordCharacter_of_mem_signedDecimal)

/-- A control character is read from the digits of its number. -/
theorem scan_control {character : Char} (control : character.toNat < 0x20) (taken : List Char) :
    scan ⟨before, .text taken .plain⟩ ['\\', 'u', '0', '0', hexDigit (character.toNat / 16),
        hexDigit (character.toNat % 16)] =
      some ⟨before, .text (taken ++ [character]) .plain⟩ := by
  have high : step ⟨before, .text taken (.code none 0 2)⟩ (hexDigit (character.toNat / 16)) =
      some ⟨before, .text taken (.code none (character.toNat / 16) 1)⟩ := by
    simp [step, stepText, digitIn?_hexDigit (show character.toNat / 16 < 16 by omega)]
  have whole : character.toNat / 16 * 16 + character.toNat % 16 = character.toNat := by omega
  have valid : character.toNat.isValidChar := character.valid
  have low : step ⟨before, .text taken (.code none (character.toNat / 16) 1)⟩
      (hexDigit (character.toNat % 16)) = some ⟨before, .text (taken ++ [character]) .plain⟩ := by
    simp [step, stepText, digitIn?_hexDigit (show character.toNat % 16 < 16 by omega), whole,
      takeUnit, valid, Char.ofNat_toNat]
  calc scan ⟨before, .text taken .plain⟩ ['\\', 'u', '0', '0', hexDigit (character.toNat / 16),
        hexDigit (character.toNat % 16)]
      = scan ⟨before, .text taken (.code none 0 2)⟩
          [hexDigit (character.toNat / 16), hexDigit (character.toNat % 16)] := rfl
    _ = some ⟨before, .text (taken ++ [character]) .plain⟩ := by
        rw [scan_cons, high, Option.bind_some, scan_cons, low]
        rfl

/-- An escaped character is read as that character. -/
theorem scan_escape (taken : List Char) (character : Char) :
    scan ⟨before, .text taken .plain⟩ (escape character) =
      some ⟨before, .text (taken ++ [character]) .plain⟩ := by
  unfold escape
  split
  · next same => subst same; rfl
  split
  · next same => subst same; rfl
  split
  · next same => subst same; rfl
  split
  · next same => subst same; rfl
  split
  · next same => subst same; rfl
  split
  · next same => subst same; rfl
  split
  · next same => subst same; rfl
  · next notQuote notBackslash _ _ _ _ _ =>
    split
    · next control => exact scan_control control taken
    · next printable => simp [scan_cons, step, stepText, notQuote, notBackslash, printable]

theorem scan_escaped (taken rest : List Char) :
    scan ⟨before, .text taken .plain⟩ (rest.flatMap escape) =
      some ⟨before, .text (taken ++ rest) .plain⟩ := by
  induction rest generalizing taken with
  | nil => simp
  | cons character rest ih =>
      rw [List.flatMap_cons, scan_append, scan_escape, Option.bind_some, ih]
      simp

theorem settles_quote (value : String) : Settles (quote value) [.text value] := by
  intro before
  have opened : step ⟨before, .idle⟩ '"' = some ⟨before, .text [] .plain⟩ := rfl
  have closed : step ⟨before, .text value.toList .plain⟩ '"' =
      some ⟨before ++ [.text value], .idle⟩ := by
    simp [step, stepText, String.ofList_toList]
  rw [quote, scan_cons, opened, Option.bind_some, scan_append, scan_escaped, Option.bind_some,
    List.nil_append, scan_cons, closed]
  rfl

end Lexer

/-- A layout whose marks stand among blanks. -/
structure Layout.Spaced (layout : Layout) : Prop where
  opening : ∀ depth, IsGap (layout.opening depth)
  between : ∀ depth, ∃ gap, layout.between depth = ',' :: gap ∧ IsGap gap
  closing : ∀ depth, IsGap (layout.closing depth)
  colon : ∃ gap, layout.colon = ':' :: gap ∧ IsGap gap

theorem isGap_nil : IsGap [] := by
  simp [IsGap]

theorem isGap_newline (depth : Nat) : IsGap (newline depth) := by
  intro character mem
  rcases List.mem_cons.mp mem with rfl | blank
  · decide
  · rw [List.eq_of_mem_replicate blank]
    decide

theorem Layout.spaced_indented : Layout.indented.Spaced where
  opening := isGap_newline
  between := fun depth => ⟨newline depth, rfl, isGap_newline depth⟩
  closing := isGap_newline
  colon := ⟨[' '], rfl, by simp [IsGap, blanks]⟩

theorem Layout.spaced_compact : Layout.compact.Spaced where
  opening := fun _ => isGap_nil
  between := fun _ => ⟨[], rfl, isGap_nil⟩
  closing := fun _ => isGap_nil
  colon := ⟨[], rfl, isGap_nil⟩

namespace Lexer

open Token (ofMark?)

variable {layout : Layout} {gap : List Char} {character : Char} {token : Token}

theorem follows_mark_gap (mark : ofMark? character = some token) (isGap : IsGap gap) :
    Follows (character :: gap) [token] :=
  (follows_mark mark).append (settles_gap isGap)

theorem follows_gap_mark (mark : ofMark? character = some token) (isGap : IsGap gap) :
    Follows (gap ++ [character]) [token] := by
  refine ⟨(settles_gap isGap).append (follows_mark mark).settles, ?_⟩
  cases gap with
  | nil => exact (follows_mark mark).parted
  | cons first rest =>
      have parted := Token.isWordCharacter_of_mem_blanks (isGap first List.mem_cons_self)
      exact ⟨first, rest ++ [character], rfl, parted⟩

theorem settles_key (spaced : layout.Spaced) (key : String) :
    Settles (quote key ++ layout.colon) [.text key, .colon] := by
  obtain ⟨gap, colonEq, isGap⟩ := spaced.colon
  rw [colonEq]
  exact (settles_quote key).append (follows_mark_gap rfl isGap).settles

theorem follows_between (spaced : layout.Spaced) (depth : Nat) :
    Follows (layout.between depth) [.comma] := by
  obtain ⟨gap, betweenEq, isGap⟩ := spaced.between depth
  rw [betweenEq]
  exact follows_mark_gap rfl isGap

end Lexer

section Written

open Lexer (Reads Settles Follows)

variable {layout : Layout}

mutual

/-- A written value is read to the tokens of the value. -/
theorem reads_write (spaced : layout.Spaced) (depth : Nat) :
    (value : Json) → Reads (write layout depth value) value.tokens
  | .null => by
      rw [write, tokens]
      exact Lexer.reads_word (by decide) (by decide)
  | .bool true => by
      rw [write, tokens]
      exact Lexer.reads_word (by decide) (by decide)
  | .bool false => by
      rw [write, tokens]
      exact Lexer.reads_word (by decide) (by decide)
  | .number value => by
      rw [write, tokens]
      exact Lexer.reads_number value
  | .text value => by
      rw [write, tokens]
      exact (Lexer.settles_quote value).reads
  | .list [] => by
      have closed : Follows [']'] [.closeList] := Lexer.follows_mark rfl
      rw [write, tokens]
      exact ((Lexer.follows_mark rfl).append closed.settles).settles.reads
  | .list (item :: items) => by
      have opened : Follows ('[' :: layout.opening (depth + 1)) [.openList] :=
        Lexer.follows_mark_gap rfl (spaced.opening (depth + 1))
      have first := reads_write spaced (depth + 1) item
      -- The other items and the end of the list begin with a mark, so the first item ends there.
      have closed : Follows (layout.closing depth ++ [']']) [.closeList] :=
        Lexer.follows_gap_mark rfl (spaced.closing depth)
      have others := follows_writeItems spaced (depth + 1) items closed
      have whole := opened.settles.append (first.append_follows others)
      simpa [write, tokens, List.append_assoc] using whole.reads
  | .object [] => by
      have closed : Follows ['\x7d'] [.closeObject] := Lexer.follows_mark rfl
      rw [write, tokens]
      exact ((Lexer.follows_mark rfl).append closed.settles).settles.reads
  | .object ((key, value) :: fields) => by
      have opened : Follows ('\x7b' :: layout.opening (depth + 1)) [.openObject] :=
        Lexer.follows_mark_gap rfl (spaced.opening (depth + 1))
      have first := reads_write spaced (depth + 1) value
      have closed : Follows (layout.closing depth ++ ['\x7d']) [.closeObject] :=
        Lexer.follows_gap_mark rfl (spaced.closing depth)
      have others := follows_writeFields spaced (depth + 1) fields closed
      have whole := opened.settles.append
        ((Lexer.settles_key spaced key).append (first.append_follows others))
      simpa [write, tokens, List.append_assoc] using whole.reads

theorem follows_writeItems (spaced : layout.Spaced) (depth : Nat) :
    (items : List Json) → {ending : List Char} → {last : List Token} → Follows ending last →
      Follows (writeItems layout depth items ++ ending) (itemTokens items ++ last)
  | [], _, _, follows => by simpa [writeItems, itemTokens] using follows
  | item :: items, _, _, follows => by
      have first := reads_write spaced depth item
      have others := follows_writeItems spaced depth items follows
      have whole := (Lexer.follows_between spaced depth).append (first.append_follows others)
      simpa [writeItems, itemTokens, List.append_assoc] using whole

theorem follows_writeFields (spaced : layout.Spaced) (depth : Nat) :
    (fields : List (String × Json)) → {ending : List Char} → {last : List Token} →
      Follows ending last →
      Follows (writeFields layout depth fields ++ ending) (fieldTokens fields ++ last)
  | [], _, _, follows => by simpa [writeFields, fieldTokens] using follows
  | (key, value) :: fields, _, _, follows => by
      have first := reads_write spaced depth value
      have others := follows_writeFields spaced depth fields follows
      have whole := (Lexer.follows_between spaced depth).append
        ((Lexer.settles_key spaced key).append (first.append_follows others))
      simpa [writeFields, fieldTokens, List.append_assoc] using whole

end

/-- A document that is a written value has the tokens of the value. -/
theorem tokens?_write (spaced : layout.Spaced) (depth : Nat) (value : Json) :
    tokens? (write layout depth value) = some value.tokens := by
  obtain ⟨lexer, scans, finished⟩ := reads_write spaced depth value []
  rw [tokens?, scans, Option.bind_some, finished, List.nil_append]

end Written

end CaseHarness.Json
