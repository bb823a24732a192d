import CaseHarness.Proofs.Json.Tokens

/-!
# Documents are read back

The reader goes down a list of tokens as the grammar of JSON does: a value is a single token or
a list or object whose first element, if it has one, is followed by elements with a comma in
front of each.  Every call takes a token, so the number of tokens bounds the calls.

A list of tokens is read as a value exactly if it is the tokens of this value.  Since a written
value has these tokens in every layout, it is read back.
-/

namespace CaseHarness.Json

mutual

/-- Read a value and leave the tokens behind it. -/
def parseValue : Nat → List Token → Option (Json × List Token)
  | _ + 1, .null :: rest => some (null, rest)
  | _ + 1, .bool value :: rest => some (bool value, rest)
  | _ + 1, .number value :: rest => some (number value, rest)
  | _ + 1, .text value :: rest => some (text value, rest)
  | _ + 1, .openList :: .closeList :: rest => some (list [], rest)
  | bound + 1, .openList :: rest =>
      (parseValue bound rest).bind fun (item, rest) =>
        (parseItems bound rest).map fun (items, rest) => (list (item :: items), rest)
  | _ + 1, .openObject :: .closeObject :: rest => some (object [], rest)
  | bound + 1, .openObject :: .text key :: .colon :: rest =>
      (parseValue bound rest).bind fun (value, rest) =>
        (parseFields bound rest).map fun (fields, rest) => (object ((key, value) :: fields), rest)
  | _, _ => none

/-- Read the items after the first, and the end of the list. -/
def parseItems : Nat → List Token → Option (List Json × List Token)
  | _ + 1, .closeList :: rest => some ([], rest)
  | bound + 1, .comma :: rest =>
      (parseValue bound rest).bind fun (item, rest) =>
        (parseItems bound rest).map fun (items, rest) => (item :: items, rest)
  | _, _ => none

/-- Read the fields after the first, and the end of the object. -/
def parseFields : Nat → List Token → Option (List (String × Json) × List Token)
  | _ + 1, .closeObject :: rest => some ([], rest)
  | bound + 1, .comma :: .text key :: .colon :: rest =>
      (parseValue bound rest).bind fun (value, rest) =>
        (parseFields bound rest).map fun (fields, rest) => ((key, value) :: fields, rest)
  | _, _ => none

end

/-- The value of a whole list of tokens. -/
def parse? (tokens : List Token) : Option Json :=
  match parseValue tokens.length tokens with
  | some (value, []) => some value
  | _ => none

/-- Read a document. -/
def read? (document : String) : Option Json :=
  (tokens? document.toList).bind parse?

/-- What is read at a bound is the tokens of what was read. -/
structure Sound (bound : Nat) : Prop where
  value : ∀ {given value rest}, parseValue bound given = some (value, rest) →
    given = value.tokens ++ rest
  items : ∀ {given items rest}, parseItems bound given = some (items, rest) →
    given = itemTokens items ++ .closeList :: rest
  fields : ∀ {given fields rest}, parseFields bound given = some (fields, rest) →
    given = fieldTokens fields ++ .closeObject :: rest

theorem Sound.zero : Sound 0 := by
  constructor
  · intro given value rest parses
    simp [parseValue] at parses
  · intro given value rest parses
    simp [parseItems] at parses
  · intro given value rest parses
    simp [parseFields] at parses

variable {bound : Nat} {given rest : List Token}

theorem Sound.items_succ (sound : Sound bound) {items : List Json}
    (parses : parseItems (bound + 1) given = some (items, rest)) :
    given = itemTokens items ++ .closeList :: rest := by
  unfold parseItems at parses
  split at parses
  · cases parses
    simp [itemTokens]
  · next boundEq =>
    cases boundEq
    obtain ⟨⟨item, behind⟩, first, parses⟩ := Option.bind_eq_some_iff.mp parses
    obtain ⟨⟨others, behind⟩, later, same⟩ := Option.map_eq_some_iff.mp parses
    cases same
    rw [sound.value first, sound.items later]
    simp [itemTokens]
  · cases parses

theorem Sound.fields_succ (sound : Sound bound) {fields : List (String × Json)}
    (parses : parseFields (bound + 1) given = some (fields, rest)) :
    given = fieldTokens fields ++ .closeObject :: rest := by
  unfold parseFields at parses
  split at parses
  · cases parses
    simp [fieldTokens]
  · next boundEq =>
    cases boundEq
    obtain ⟨⟨value, behind⟩, first, parses⟩ := Option.bind_eq_some_iff.mp parses
    obtain ⟨⟨others, behind⟩, later, same⟩ := Option.map_eq_some_iff.mp parses
    cases same
    rw [sound.value first, sound.fields later]
    simp [fieldTokens]
  · cases parses

theorem Sound.value_succ (sound : Sound bound) {value : Json}
    (parses : parseValue (bound + 1) given = some (value, rest)) :
    given = value.tokens ++ rest := by
  unfold parseValue at parses
  split at parses
  · cases parses
    simp [tokens]
  · cases parses
    simp [tokens]
  · cases parses
    simp [tokens]
  · cases parses
    simp [tokens]
  · cases parses
    simp [tokens]
  · next boundEq =>
    cases boundEq
    obtain ⟨⟨item, behind⟩, first, parses⟩ := Option.bind_eq_some_iff.mp parses
    obtain ⟨⟨items, behind⟩, later, same⟩ := Option.map_eq_some_iff.mp parses
    cases same
    rw [sound.value first, sound.items later]
    simp [tokens]
  · cases parses
    simp [tokens]
  · next boundEq =>
    cases boundEq
    obtain ⟨⟨value, behind⟩, first, parses⟩ := Option.bind_eq_some_iff.mp parses
    obtain ⟨⟨fields, behind⟩, later, same⟩ := Option.map_eq_some_iff.mp parses
    cases same
    rw [sound.value first, sound.fields later]
    simp [tokens]
  · cases parses

theorem sound (bound : Nat) : Sound bound := by
  induction bound with
  | zero => exact .zero
  | succ bound ih => exact ⟨ih.value_succ, ih.items_succ, ih.fields_succ⟩

/-- No value begins with the end of a list. -/
theorem tokens_eq_cons (value : Json) :
    ∃ first others, value.tokens = first :: others ∧ first ≠ .closeList := by
  cases value with
  | null => exact ⟨_, _, by rw [tokens], by decide⟩
  | bool value => exact ⟨.bool value, [], by rw [tokens], by simp⟩
  | number value => exact ⟨.number value, [], by rw [tokens], by simp⟩
  | text value => exact ⟨.text value, [], by rw [tokens], by simp⟩
  | list items =>
      cases items with
      | nil => exact ⟨_, _, by rw [tokens], by decide⟩
      | cons item items => exact ⟨_, _, by rw [tokens], by decide⟩
  | object fields =>
      cases fields with
      | nil => exact ⟨_, _, by rw [tokens], by decide⟩
      | cons field fields => exact ⟨_, _, by rw [tokens], by decide⟩

theorem parseValue_openList (value : Json) :
    parseValue (bound + 1) (.openList :: (value.tokens ++ rest)) =
      (parseValue bound (value.tokens ++ rest)).bind fun (item, rest) =>
        (parseItems bound rest).map fun (items, rest) => (list (item :: items), rest) := by
  obtain ⟨first, others, tokensEq, notEnd⟩ := tokens_eq_cons value
  rw [tokensEq, List.cons_append, parseValue]
  rintro _ same
  cases same
  exact absurd rfl notEnd

mutual

/-- The tokens of a value are read as the value, whatever stands behind them. -/
theorem parseValue_tokens : (value : Json) → {bound : Nat} → {rest : List Token} →
    value.tokens.length ≤ bound → parseValue bound (value.tokens ++ rest) = some (value, rest)
  | value, 0, _, fits => by
      obtain ⟨first, others, tokensEq, -⟩ := tokens_eq_cons value
      rw [tokensEq] at fits
      cases fits
  | .null, bound + 1, _, _ => by
      rw [tokens]
      rfl
  | .bool value, bound + 1, _, _ => by
      rw [tokens]
      rfl
  | .number value, bound + 1, _, _ => by
      rw [tokens]
      rfl
  | .text value, bound + 1, _, _ => by
      rw [tokens]
      rfl
  | .list [], bound + 1, _, _ => by
      rw [tokens]
      rfl
  | .list (item :: items), bound + 1, rest, fits => by
      simp only [tokens, List.length_cons, List.length_append, List.length_nil] at fits
      have first : parseValue bound (item.tokens ++ (itemTokens items ++ .closeList :: rest)) =
          some (item, itemTokens items ++ .closeList :: rest) := parseValue_tokens item (by omega)
      have others : parseItems bound (itemTokens items ++ .closeList :: rest) =
          some (items, rest) := parseItems_tokens items (by omega)
      have whole : (list (item :: items)).tokens ++ rest =
          .openList :: (item.tokens ++ (itemTokens items ++ .closeList :: rest)) := by
        simp [tokens]
      rw [whole, parseValue_openList, first, Option.bind_some]
      dsimp only
      rw [others, Option.map_some]
  | .object [], bound + 1, _, _ => by
      rw [tokens]
      rfl
  | .object ((key, value) :: fields), bound + 1, rest, fits => by
      simp only [tokens, List.length_cons, List.length_append, List.length_nil] at fits
      have first : parseValue bound (value.tokens ++ (fieldTokens fields ++ .closeObject :: rest)) =
          some (value, fieldTokens fields ++ .closeObject :: rest) :=
        parseValue_tokens value (by omega)
      have others : parseFields bound (fieldTokens fields ++ .closeObject :: rest) =
          some (fields, rest) := parseFields_tokens fields (by omega)
      have whole : (object ((key, value) :: fields)).tokens ++ rest = .openObject :: .text key ::
          .colon :: (value.tokens ++ (fieldTokens fields ++ .closeObject :: rest)) := by
        simp [tokens]
      rw [whole, parseValue, first, Option.bind_some]
      dsimp only
      rw [others, Option.map_some]

theorem parseItems_tokens : (items : List Json) → {bound : Nat} → {rest : List Token} →
    (itemTokens items).length < bound →
      parseItems bound (itemTokens items ++ .closeList :: rest) = some (items, rest)
  | [], bound + 1, _, _ => by
      rw [itemTokens]
      rfl
  | item :: items, bound + 1, rest, fits => by
      simp only [itemTokens, List.length_cons, List.length_append] at fits
      have first : parseValue bound (item.tokens ++ (itemTokens items ++ .closeList :: rest)) =
          some (item, itemTokens items ++ .closeList :: rest) := parseValue_tokens item (by omega)
      have others : parseItems bound (itemTokens items ++ .closeList :: rest) =
          some (items, rest) := parseItems_tokens items (by omega)
      rw [itemTokens, List.cons_append, List.append_assoc, parseItems, first, Option.bind_some]
      dsimp only
      rw [others, Option.map_some]

theorem parseFields_tokens : (fields : List (String × Json)) → {bound : Nat} →
    {rest : List Token} → (fieldTokens fields).length < bound →
      parseFields bound (fieldTokens fields ++ .closeObject :: rest) = some (fields, rest)
  | [], bound + 1, _, _ => by
      rw [fieldTokens]
      rfl
  | (key, value) :: fields, bound + 1, rest, fits => by
      simp only [fieldTokens, List.length_cons, List.length_append] at fits
      have first : parseValue bound (value.tokens ++ (fieldTokens fields ++ .closeObject :: rest)) =
          some (value, fieldTokens fields ++ .closeObject :: rest) :=
        parseValue_tokens value (by omega)
      have others : parseFields bound (fieldTokens fields ++ .closeObject :: rest) =
          some (fields, rest) := parseFields_tokens fields (by omega)
      have whole : fieldTokens ((key, value) :: fields) ++ .closeObject :: rest =
          .comma :: .text key :: .colon ::
            (value.tokens ++ (fieldTokens fields ++ .closeObject :: rest)) := by
        simp [fieldTokens]
      rw [whole, parseFields, first, Option.bind_some]
      dsimp only
      rw [others, Option.map_some]

end

/-- A list of tokens is read as a value exactly if it is the tokens of this value. -/
theorem parse?_eq_some_iff {value : Json} : parse? given = some value ↔ given = value.tokens := by
  constructor
  · intro parses
    unfold parse? at parses
    split at parses
    · next single reads =>
      cases parses
      simpa using (sound given.length).value reads
    · cases parses
  · rintro rfl
    have reads : parseValue value.tokens.length (value.tokens ++ []) = some (value, []) :=
      parseValue_tokens value (Nat.le_refl _)
    rw [List.append_nil] at reads
    rw [parse?, reads]

theorem read?_eq_some_iff {document : String} {value : Json} :
    read? document = some value ↔ tokens? document.toList = some value.tokens := by
  rw [read?, Option.bind_eq_some_iff]
  constructor
  · rintro ⟨given, lexes, parses⟩
    rw [lexes, parse?_eq_some_iff.mp parses]
  · intro lexes
    exact ⟨value.tokens, lexes, parse?_eq_some_iff.mpr rfl⟩

/-- A value written on many lines is read back. -/
theorem read?_pretty (value : Json) : read? value.pretty = some value := by
  rw [read?_eq_some_iff, pretty, String.toList_ofList]
  exact tokens?_write Layout.spaced_indented 0 value

/-- A value written on one line is read back. -/
theorem read?_compact (value : Json) : read? value.compact = some value := by
  rw [read?_eq_some_iff, compact, String.toList_ofList]
  exact tokens?_write Layout.spaced_compact 0 value

example : read? "\t\x7b \"a\\/\\u0062\" : [true,\"\\uD834\\udd1e\" ,\n-0 ] \x7d" =
    some (object [("a/b", list [bool true, text "𝄞", number 0])]) := by
  rfl

example : read? "[1,]" = none := by
  rfl

end CaseHarness.Json
