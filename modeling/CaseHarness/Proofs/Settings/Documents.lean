import CaseHarness.Proofs.Settings.Values

/-!
# Documents of settings

A document is read entry by entry.  The reader gives the entries of a document exactly if every
statement that the document spells assigns a string or an integer to a key without dots.
-/

namespace CaseHarness.Settings.File

open Toml (IsBare Spaces LineEnd Comment Trailing Quoting Quoted Statement SpellsName SpellsKey
  SpellsAssignment SpellsLine SpellsLines SpellsDocument)

variable {text rest : List Char} {character : Char} {name : String}

/-! ## Line ends -/

/-- What stands behind a line: nothing, or a line end and the lines that follow. -/
inductive Ends : List Char → List Char → Prop
  | finished : Ends [] []
  | lineEnd {ending rest : List Char} (ends : LineEnd ending) : Ends (ending ++ rest) rest

def passEnd : List Char → Option (List Char)
  | [] => some []
  | '\n' :: rest => some rest
  | '\r' :: '\n' :: rest => some rest
  | _ => none

def passComment (text : List Char) : List Char :=
  match text with
  | '#' :: comment => comment.dropWhile isPlain
  | _ => text

theorem lineEnd_eq (text : List Char) :
    lineEnd text = passEnd (passComment (text.dropWhile isSpace)) :=
  rfl

theorem passEnd_eq_some_iff : passEnd text = some rest ↔ Ends text rest := by
  constructor
  · intro passed
    unfold passEnd at passed
    split at passed <;> cases passed
    · exact .finished
    · exact .lineEnd .newline
    · exact .lineEnd .carriage
  · intro ends
    cases ends with
    | finished => rfl
    | lineEnd ends => cases ends <;> rfl

theorem lineEnd_of_trailing {trailing behind : List Char} (trails : Trailing trailing)
    (ends : Ends behind rest) : lineEnd (trailing ++ behind) = some rest := by
  have stops : behind.dropWhile isPlain = behind ∧ behind.dropWhile isSpace = behind ∧
      passComment behind = behind := by
    cases ends with
    | finished => exact ⟨rfl, rfl, rfl⟩
    | lineEnd ends => cases ends <;> simp [isPlain, isSpace, passComment]
  obtain ⟨noPlain, noSpace, noComment⟩ := stops
  obtain @⟨spaces, comment, blank, said⟩ := trails
  rw [lineEnd_eq, List.append_assoc, dropWhile_isSpace blank, ← passEnd_eq_some_iff.mpr ends]
  cases said with
  | nothing => rw [List.nil_append, noSpace, noComment]
  | @comment text isText =>
      have noSpace : ('#' :: text ++ behind).dropWhile isSpace = '#' :: (text ++ behind) := rfl
      rw [noSpace, passComment, List.dropWhile_append_of_pos fun character member =>
        isPlain_iff.mpr (isText character member), noPlain]

theorem exists_comment (text : List Char) :
    ∃ comment, Comment comment ∧ text = comment ++ passComment text := by
  unfold passComment
  split
  · next comment =>
    refine ⟨'#' :: comment.takeWhile isPlain, .comment fun character member => ?_, ?_⟩
    · exact isPlain_iff.mp (List.mem_takeWhile_imp member)
    · rw [List.cons_append, List.takeWhile_append_dropWhile]
  · exact ⟨[], .nothing, rfl⟩

theorem trailing_of_lineEnd (read : lineEnd text = some rest) :
    ∃ trailing behind, Trailing trailing ∧ Ends behind rest ∧ text = trailing ++ behind := by
  rw [lineEnd_eq, passEnd_eq_some_iff] at read
  obtain ⟨comment, said, commentEq⟩ := exists_comment (text.dropWhile isSpace)
  refine ⟨text.takeWhile isSpace ++ comment, _, .mk (spaces_takeWhile text) said, read, ?_⟩
  rw [List.append_assoc, ← commentEq, List.takeWhile_append_dropWhile]

/-- A line with something on it does not end here. -/
theorem lineEnd_eq_none {spaces : List Char} (blank : Spaces spaces) (begins : BeginsWord text) :
    lineEnd (spaces ++ text) = none := by
  rw [lineEnd_eq, dropWhile_isSpace blank, begins.dropWhile_isSpace]
  obtain ⟨first, others, rfl, goesOn⟩ := begins
  simp only [endsWord, Bool.or_eq_false_iff, decide_eq_false_iff_not] at goesOn
  obtain ⟨⟨⟨-, noNewline⟩, noCarriage⟩, noComment⟩ := goesOn
  simp [passComment, passEnd, noNewline, noCarriage, noComment]

/-! ## Keys -/

theorem isBareKey_iff : isBareKey character = true ↔ IsBare character := by
  simp [isBareKey, IsBare, or_assoc]

/-- The text goes on with something that is no part of a bare key. -/
def EndsKey (text : List Char) : Prop :=
  ∀ character, text.head? = some character → isBareKey character = false

theorem key_of_bare (nonempty : text ≠ []) (bare : ∀ character ∈ text, IsBare character)
    (ends : EndsKey rest) : key (text ++ rest) = some (String.ofList text, rest) := by
  have goesOn : ∀ character ∈ text, isBareKey character = true := fun character member =>
    isBareKey_iff.mpr (bare character member)
  have stops := takeWhile_stops ends
  have taken : (text ++ rest).takeWhile isBareKey = text := by
    rw [List.takeWhile_append_of_pos goesOn, stops.1, List.append_nil]
  have dropped : (text ++ rest).dropWhile isBareKey = rest := by
    rw [List.dropWhile_append_of_pos goesOn, stops.2]
  obtain ⟨first, others, rfl⟩ := List.exists_cons_of_ne_nil nonempty
  have noQuote : first ≠ '"' ∧ first ≠ '\x27' := by
    constructor <;> rintro rfl <;> exact absurd (goesOn _ List.mem_cons_self) (by decide)
  rw [List.cons_append] at taken dropped ⊢
  rw [key, taken, dropped]
  · exact fun rest textEq => noQuote.1 (List.cons.inj textEq).1
  · exact fun rest textEq => noQuote.2 (List.cons.inj textEq).1

theorem key_of_delimiter {quoting : Quoting} (oneLine : quoting.manyLines = false)
    (text : List Char) :
    key (quoting.delimiter ++ text) =
      (reader quoting text).map fun (content, others) => (String.ofList content, others) := by
  match quoting, oneLine with
  | ⟨true, false⟩, _ => rfl
  | ⟨false, false⟩, _ => rfl

theorem key_of_quoted {quoting : Quoting} {content : List Char}
    (oneLine : quoting.manyLines = false) (quoted : Quoted quoting content text) :
    key (text ++ rest) = some (String.ofList content, rest) := by
  cases quoted with
  | plain isBody _ =>
      rw [List.append_assoc, List.append_assoc, key_of_delimiter oneLine,
        (reads_reader quoting).read_body isBody (by simp [oneLine])]
      rfl
  | below manyLines _ _ => simp [oneLine] at manyLines

theorem key_of_name (spelled : SpellsName name text) (ends : EndsKey rest) :
    key (text ++ rest) = some (name, rest) := by
  cases spelled with
  | bare nonempty bare => exact key_of_bare nonempty bare ends
  | quoted oneLine quoted => exact key_of_quoted oneLine quoted

theorem name_of_key (read : key text = some (name, rest)) :
    ∃ spelled, SpellsName name spelled ∧ text = spelled ++ rest := by
  unfold key at read
  split at read
  · obtain ⟨⟨content, _⟩, isContent, readEq⟩ := Option.map_eq_some_iff.mp read
    cases readEq
    obtain ⟨spelled, quoted, textEq⟩ := quoted_of_oneLine ⟨true, false⟩ rfl isContent
    exact ⟨spelled, .quoted rfl quoted, textEq⟩
  · obtain ⟨⟨content, _⟩, isContent, readEq⟩ := Option.map_eq_some_iff.mp read
    cases readEq
    obtain ⟨spelled, quoted, textEq⟩ := quoted_of_oneLine ⟨false, false⟩ rfl isContent
    exact ⟨spelled, .quoted rfl quoted, textEq⟩
  · split at read
    · cases read
    · next nonempty =>
      cases read
      refine ⟨_, .bare nonempty fun character member => ?_, List.takeWhile_append_dropWhile.symm⟩
      exact isBareKey_iff.mp (List.mem_takeWhile_imp member)

/-! ## Entries -/

/-- An entry as a statement of TOML. -/
def Entry.statement (entry : Entry) : Statement :=
  .assign ⟨[], entry.key⟩ entry.value.written

/-- The entry that a statement makes, if it makes one. -/
def entryOf : Statement → Option Entry
  | .assign ⟨[], name⟩ written => (plain? written).map (⟨name, ·⟩)
  | _ => none

theorem entryOf_eq_some_iff {statement : Statement} {entry : Entry} :
    entryOf statement = some entry ↔ statement = entry.statement := by
  constructor
  · intro isEntry
    unfold entryOf at isEntry
    split at isEntry
    · next name written =>
      obtain ⟨plain, isPlain, rfl⟩ := Option.map_eq_some_iff.mp isEntry
      rw [plain?_eq_some_iff.mp isPlain]
      rfl
    · cases isEntry
  · rintro rfl
    exact Option.map_eq_some_iff.mpr ⟨entry.value, plain?_eq_some_iff.mpr rfl, rfl⟩

theorem mapM_entryOf_eq_some_iff {statements : List Statement} {entries : List Entry} :
    statements.mapM entryOf = some entries ↔ statements = entries.map Entry.statement := by
  induction statements generalizing entries with
  | nil => cases entries <;> simp
  | cons statement statements ih =>
      simp only [List.mapM_cons, bind, pure, Option.bind_eq_some_iff, Option.some.injEq,
        entryOf_eq_some_iff, ih]
      constructor
      · rintro ⟨first, rfl, others, rfl, rfl⟩
        rfl
      · intro statementsEq
        obtain ⟨first, others, rfl, rfl, rfl⟩ := List.map_eq_cons_iff.mp statementsEq.symm
        exact ⟨first, rfl, others, rfl, rfl⟩

theorem endsWord_of_isBareKey (bare : isBareKey character = true) :
    endsWord character = false := by
  have noBare : ∀ character ∈ [' ', '\t', '\n', '\r', '#'], isBareKey character = false :=
    List.all_iff_forall_prop.mp (by decide)
  cases ends : endsWord character with
  | false => rfl
  | true =>
      rw [noBare character (by simpa [endsWord, isSpace, or_assoc] using ends)] at bare
      cases bare

theorem beginsWord_of_name (spelled : SpellsName name text) : BeginsWord text := by
  cases spelled with
  | bare nonempty bare =>
      obtain ⟨first, others, rfl⟩ := List.exists_cons_of_ne_nil nonempty
      have isBare := isBareKey_iff.mpr (bare first List.mem_cons_self)
      exact ⟨first, others, rfl, endsWord_of_isBareKey isBare⟩
  | quoted _ quoted => exact beginsWord_of_quoted quoted

theorem beginsWord_of_assignment {key : Toml.Key} {written : Toml.Value}
    (spelled : SpellsAssignment key written text) : BeginsWord text := by
  obtain ⟨keyed, _, _, _⟩ := spelled
  cases keyed with
  | name named => exact (beginsWord_of_name named).append _
  | dotted named _ _ _ => exact ((beginsWord_of_name named).append _).append _

theorem endsKey_of_spaces {spaces : List Char} (blank : Spaces spaces)
    (ends : isBareKey character = false) (rest : List Char) :
    EndsKey (spaces ++ character :: rest) := by
  intro first headEq
  cases spaces with
  | nil =>
      cases headEq
      exact ends
  | cons space others =>
      obtain rfl : space = first := Option.some.inj headEq
      rcases blank space List.mem_cons_self with rfl | rfl <;> decide

/-- An entry whose key has been read needs the mark of an assignment. -/
theorem entry_of_key {spaces : List Char}
    (isKey : key text = some (name, spaces ++ character :: rest)) (blank : Spaces spaces)
    (noSpace : isSpace character = false) :
    entry text =
      if character = '=' then
        (value (rest.dropWhile isSpace)).map fun (read, rest) => (⟨name, read⟩, rest)
      else none := by
  have stops : (character :: rest).dropWhile isSpace = character :: rest := by simp [noSpace]
  unfold entry
  rw [isKey]
  dsimp only
  rw [dropWhile_isSpace blank, stops]
  split <;> simp_all

theorem entry_of_assignment {key : Toml.Key} {written : Toml.Value}
    (spelled : SpellsAssignment key written text) (closes : Closes rest) :
    entry (text ++ rest) = (entryOf (.assign key written)).map (·, rest) := by
  obtain @⟨_, _, _, before, after, valueText, keyed, blankBefore, blankAfter, spelled⟩ := spelled
  simp only [List.append_assoc, List.cons_append]
  cases keyed with
  | name named =>
      have valued : value ((after ++ (valueText ++ rest)).dropWhile isSpace) =
          (plain? written).map (·, rest) := by
        rw [dropWhile_isSpace blankAfter,
          ((beginsWord_of_spells spelled).append rest).dropWhile_isSpace,
          value_of_spells spelled closes]
      have noKey : isBareKey '=' = false := by decide
      have isKey := fun rest => key_of_name named (endsKey_of_spaces blankBefore noKey rest)
      rw [entry_of_key (isKey _) blankBefore (by decide), if_pos rfl, valued]
      simp [entryOf, Function.comp_def]
  | dotted named blank _ _ =>
      simp only [List.append_assoc, List.cons_append]
      have noKey : isBareKey '.' = false := by decide
      have isKey := fun rest => key_of_name named (endsKey_of_spaces blank noKey rest)
      rw [entry_of_key (isKey _) blank (by decide), if_neg (by decide)]
      rfl

theorem assignment_of_entry {entry : Entry} (read : File.entry text = some (entry, rest)) :
    ∃ spelled, SpellsAssignment ⟨[], entry.key⟩ entry.value.written spelled ∧
      text = spelled ++ rest := by
  unfold File.entry at read
  split at read
  · cases read
  · next name afterKey isKey =>
    obtain ⟨keyText, named, rfl⟩ := name_of_key isKey
    split at read
    · next afterMark afterKeyEq =>
      obtain ⟨⟨plain, _⟩, isValue, readEq⟩ := Option.map_eq_some_iff.mp read
      cases readEq
      obtain ⟨valueText, spelled, afterMarkEq⟩ := spells_of_value isValue
      refine ⟨_, .mk (.name named) (spaces_takeWhile afterKey) (spaces_takeWhile afterMark) spelled,
        ?_⟩
      have afterKeyParts := List.takeWhile_append_dropWhile (p := isSpace) (l := afterKey)
      have afterMarkParts := List.takeWhile_append_dropWhile (p := isSpace) (l := afterMark)
      rw [afterMarkEq] at afterMarkParts
      rw [afterKeyEq] at afterKeyParts
      simp only [List.append_assoc, List.cons_append]
      rw [afterMarkParts, afterKeyParts]
    · cases read

/-- No entry begins with a bracket. -/
theorem entry_bracket (rest : List Char) : entry ('[' :: rest) = none := by
  have noKey : key ('[' :: rest) = none := rfl
  rw [entry, noKey]

/-! ## Documents -/

theorem entriesWithin_nil (turns : Nat) : entriesWithin turns [] = some [] := by
  cases turns <;> rfl

theorem entriesWithin_of_lineEnd (turns : Nat) (blank : lineEnd text = some rest) :
    entriesWithin (turns + 1) text = entriesWithin turns rest := by
  rw [entriesWithin, blank]
  cases rest with
  | nil => exact (entriesWithin_nil turns).symm
  | cons _ _ => rfl

theorem entriesWithin_statement {turns : Nat} {spaces : List Char} (blank : Spaces spaces)
    (begins : BeginsWord text) :
    entriesWithin (turns + 1) (spaces ++ text) =
      (entry text).bind fun (first, afterEntry) => (lineEnd afterEntry).bind fun rest =>
        (entriesWithin turns rest).map fun others => first :: others := by
  rw [entriesWithin, lineEnd_eq_none blank begins, dropWhile_isSpace blank,
    begins.dropWhile_isSpace]
  dsimp only
  rcases entry text with _ | ⟨read, afterEntry⟩
  · rfl
  · dsimp only [Option.bind_some]
    cases lineEnd afterEntry <;> rfl

theorem closes_of_trailing {trailing behind : List Char} (trails : Trailing trailing)
    (ends : Ends behind rest) : Closes (trailing ++ behind) := by
  have closes : Closes behind := by
    intro character headEq
    cases ends with
    | finished => cases headEq
    | lineEnd ends =>
        cases ends <;> cases headEq <;> decide
  obtain @⟨spaces, comment, blank, said⟩ := trails
  rw [List.append_assoc]
  cases spaces with
  | nil =>
      cases said with
      | nothing => exact closes
      | comment _ =>
          intro character headEq
          cases headEq
          decide
  | cons space others =>
      intro character headEq
      obtain rfl : space = character := Option.some.inj headEq
      rcases blank space List.mem_cons_self with rfl | rfl <;> decide

/-- A line gives the entry of its statement, if it has one. -/
theorem entriesWithin_line {statement : Option Statement} {behind : List Char} (turns : Nat)
    (line : SpellsLine statement text) (ends : Ends behind rest) :
    entriesWithin (turns + 1) (text ++ behind) =
      (statement.toList.mapM entryOf).bind fun first =>
        (entriesWithin turns rest).map fun others => first ++ others := by
  cases line with
  | blank trails =>
      rw [entriesWithin_of_lineEnd turns (lineEnd_of_trailing trails ends)]
      simp
  | @assign key written spaces text trailing indented spelled trails =>
      have begins : BeginsWord (text ++ (trailing ++ behind)) :=
        (beginsWord_of_assignment spelled).append _
      rw [List.append_assoc, List.append_assoc, entriesWithin_statement indented begins,
        entry_of_assignment spelled (closes_of_trailing trails ends)]
      have onlyStatement : (some (Statement.assign key written)).toList.mapM entryOf =
          (entryOf (.assign key written)).map fun entry => [entry] := by
        rw [Option.toList_some, List.mapM_cons]
        cases entryOf (.assign key written) <;> rfl
      rw [onlyStatement]
      cases entryOf (.assign key written) with
      | none => rfl
      | some first =>
          simp [lineEnd_of_trailing trails ends]
  | table indented _ _ _ _ =>
      rw [List.append_assoc, List.cons_append,
        entriesWithin_statement indented ⟨_, _, rfl, by decide⟩, entry_bracket]
      rfl
  | element indented _ _ _ _ =>
      rw [List.append_assoc, List.cons_append,
        entriesWithin_statement indented ⟨_, _, rfl, by decide⟩, entry_bracket]
      rfl

theorem entriesWithin_of_lines {turns : Nat} {statements : List Statement}
    (lines : SpellsLines statements text) (enough : text.length < turns) :
    entriesWithin turns text = statements.mapM entryOf := by
  induction lines generalizing turns with
  | @last statement text line =>
      obtain ⟨turns, rfl⟩ := Nat.exists_eq_succ_of_ne_zero (Nat.ne_zero_of_lt enough)
      have read := entriesWithin_line turns line .finished
      rw [List.append_nil, entriesWithin_nil] at read
      rw [read]
      cases statement.toList.mapM entryOf <;> simp
  | @next statement statements text ending rest line ends _ ih =>
      obtain ⟨turns, rfl⟩ := Nat.exists_eq_succ_of_ne_zero (Nat.ne_zero_of_lt enough)
      have shorter : rest.length < turns := by
        have nonempty := length_pos_of_lineEnd ends
        simp only [List.length_append] at enough
        omega
      rw [entriesWithin_line turns line (.lineEnd ends), ih shorter, List.mapM_append]
      rcases statement.toList.mapM entryOf with _ | first
      · rfl
      · cases statements.mapM entryOf <;> rfl

theorem spellsLines_append {statement : Option Statement} {statements : List Statement}
    {behind : List Char} (line : SpellsLine statement text) (ends : Ends behind rest)
    (others : SpellsLines statements rest) (silent : rest = [] → statements = []) :
    SpellsLines (statement.toList ++ statements) (text ++ behind) := by
  cases ends with
  | finished =>
      rw [silent rfl, List.append_nil, List.append_nil]
      exact .last line
  | lineEnd ends => exact .next line ends others

theorem lines_of_entriesWithin {turns : Nat} {entries : List Entry}
    (read : entriesWithin turns text = some entries) :
    SpellsLines (entries.map Entry.statement) text := by
  induction turns generalizing text entries with
  | zero =>
      unfold entriesWithin at read
      split_ifs at read with finished
      cases read
      exact finished ▸ .last (.blank (.mk (List.forall_mem_nil _) .nothing))
  | succ turns ih =>
      have silent : ∀ {rest entries}, entriesWithin turns rest = some entries → rest = [] →
          entries.map Entry.statement = [] := by
        rintro rest entries read rfl
        rw [entriesWithin_nil] at read
        cases read
        rfl
      cases blank : lineEnd text with
      | some rest =>
          rw [entriesWithin_of_lineEnd turns blank] at read
          obtain ⟨trailing, behind, trails, ends, rfl⟩ := trailing_of_lineEnd blank
          exact spellsLines_append (.blank trails) ends (ih read) (silent read)
      | none =>
          rw [entriesWithin, blank] at read
          dsimp only at read
          split at read
          · cases read
          · next first afterEntry isEntry =>
            split at read
            · cases read
            · next rest isEnd =>
              obtain ⟨others, foundOthers, rfl⟩ := Option.map_eq_some_iff.mp read
              obtain ⟨spelled, assigned, textEq⟩ := assignment_of_entry isEntry
              obtain ⟨trailing, behind, trails, ends, rfl⟩ := trailing_of_lineEnd isEnd
              have line := SpellsLine.assign (spaces_takeWhile text) assigned trails
              have lines := spellsLines_append line ends (ih foundOthers) (silent foundOthers)
              have parts := List.takeWhile_append_dropWhile (p := isSpace) (l := text)
              rw [textEq] at parts
              rw [List.append_assoc, List.append_assoc] at lines
              rw [← parts]
              exact lines

/-- The reader takes the entries of a document exactly if it spells their statements. -/
theorem entries_of_document {statements : List Statement} {document : String}
    (spelled : SpellsDocument statements document) :
    entries document = statements.mapM entryOf :=
  entriesWithin_of_lines spelled (Nat.lt_succ_self _)

theorem document_of_entries {document : String} {read : List Entry}
    (isRead : entries document = some read) :
    SpellsDocument (read.map Entry.statement) document :=
  lines_of_entriesWithin isRead

end CaseHarness.Settings.File
