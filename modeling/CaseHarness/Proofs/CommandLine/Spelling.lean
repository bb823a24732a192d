import CaseHarness.CommandLine.Arguments
import Mathlib.Data.List.TakeWhile

/-!
# Spellings of options

Which words stand for which options: a long option is its name behind two hyphens, with the
value behind an equals sign if it has one, and a cluster is a hyphen with known letters.
A word that is not plain begins with a hyphen.
-/

namespace CaseHarness.CommandLine

theorem ValueOption.ofName?_eq_some_iff {name : String} {option : ValueOption} :
    ofName? name = some option ↔ name = option.name := by
  constructor
  · intro found
    have named : option.name = name := by simpa using List.find?_some found
    exact named.symm
  · rintro rfl
    cases option <;> decide

theorem Flag.name_of_ofName?_eq_some {name : String} {flag : Flag}
    (found : ofName? name = some flag) : flag.name = name := by
  simpa using List.find?_some found

theorem ValueOption.equals_notMem_name (option : ValueOption) : '=' ∉ option.name.toList := by
  cases option <;> decide

namespace Token

private theorem keeps_of_notMem {name : List Char} (clean : '=' ∉ name) :
    ∀ character ∈ name, decide (character ≠ '=') = true := by
  intro character mem
  have other : character ≠ '=' := fun same => clean (same ▸ mem)
  exact decide_eq_true other

/-- Without an equals sign the whole body is the name. -/
theorem ofLong_of_notMem {body : List Char} (clean : '=' ∉ body) :
    ofLong body =
      match ValueOption.ofName? (String.ofList body), Flag.ofName? (String.ofList body) with
      | some wanted, _ => .option wanted
      | none, some raised => .flag raised
      | none, none => .plain := by
  have takes : body.takeWhile (fun character => character ≠ '=') = body :=
    List.takeWhile_eq_self_iff.mpr (keeps_of_notMem clean)
  have drops : body.dropWhile (fun character => character ≠ '=') = [] :=
    List.dropWhile_eq_nil_iff.mpr (keeps_of_notMem clean)
  simp only [ofLong, takes, drops, Text.after?, Option.map_none]
  cases ValueOption.ofName? (String.ofList body) <;>
    cases Flag.ofName? (String.ofList body) <;> rfl

/-- The name ends at the first equals sign, and the value begins behind it. -/
theorem ofLong_equals {name text : List Char} (clean : '=' ∉ name) :
    ofLong (name ++ '=' :: text) =
      match ValueOption.ofName? (String.ofList name), Flag.ofName? (String.ofList name) with
      | some wanted, _ => .optionValue wanted (String.ofList text)
      | none, some raised => .flagValue raised (String.ofList text)
      | none, none => .plain := by
  have takes : (name ++ '=' :: text).takeWhile (fun character => character ≠ '=') = name := by
    rw [List.takeWhile_append_of_pos (keeps_of_notMem clean)]
    simp
  have drops : (name ++ '=' :: text).dropWhile (fun character => character ≠ '=') =
      '=' :: text := by
    rw [List.dropWhile_append_of_pos (keeps_of_notMem clean)]
    simp
  simp only [ofLong, takes, drops, Text.after?, if_true, Option.map_some]
  cases ValueOption.ofName? (String.ofList name) <;>
    cases Flag.ofName? (String.ofList name) <;> rfl

theorem ofLong_eq_option_iff {body : List Char} {option : ValueOption} :
    ofLong body = .option option ↔ body = option.name.toList := by
  constructor
  · intro token
    by_cases mem : '=' ∈ body
    · obtain ⟨name, text, rfl, clean⟩ := List.eq_append_cons_of_mem mem
      rw [ofLong_equals clean] at token
      split at token <;> cases token
    · rw [ofLong_of_notMem mem] at token
      split at token
      · next named =>
        cases token
        rw [← ValueOption.ofName?_eq_some_iff.mp named, String.toList_ofList]
      · cases token
      · cases token
  · rintro rfl
    rw [ofLong_of_notMem option.equals_notMem_name, String.ofList_toList,
      ValueOption.ofName?_eq_some_iff.mpr rfl]

theorem ofLong_eq_optionValue_iff {body : List Char} {option : ValueOption} {value : String} :
    ofLong body = .optionValue option value ↔
      body = option.name.toList ++ '=' :: value.toList := by
  constructor
  · intro token
    by_cases mem : '=' ∈ body
    · obtain ⟨name, text, rfl, clean⟩ := List.eq_append_cons_of_mem mem
      rw [ofLong_equals clean] at token
      split at token
      · next named =>
        cases token
        rw [← ValueOption.ofName?_eq_some_iff.mp named, String.toList_ofList,
          String.toList_ofList]
      · cases token
      · cases token
    · rw [ofLong_of_notMem mem] at token
      split at token <;> cases token
  · rintro rfl
    rw [ofLong_equals option.equals_notMem_name, String.ofList_toList, String.ofList_toList,
      ValueOption.ofName?_eq_some_iff.mpr rfl]

variable {word value : String} {option : ValueOption} {cluster : Cluster}

theorem ofLong_ne_separator (body : List Char) : ofLong body ≠ .separator := by
  unfold ofLong
  dsimp only
  split <;> exact nofun

theorem ofLong_ne_cluster (body : List Char) : ofLong body ≠ .cluster cluster := by
  unfold ofLong
  dsimp only
  split <;> exact nofun

theorem ofLong_eq_flag {body : List Char} {flag : Flag} (token : ofLong body = .flag flag) :
    body = flag.name.toList := by
  by_cases mem : '=' ∈ body
  · obtain ⟨name, text, rfl, clean⟩ := List.eq_append_cons_of_mem mem
    rw [ofLong_equals clean] at token
    split at token <;> cases token
  · rw [ofLong_of_notMem mem] at token
    split at token
    · cases token
    · next named =>
      cases token
      rw [Flag.name_of_ofName?_eq_some named, String.toList_ofList]
    · cases token

/-- A word is the separator, a long option, a cluster or plain. -/
theorem ofWord_cases (word : String) :
    (word.toList = ['-', '-'] ∧ ofWord word = .separator) ∨
      (∃ body, body ≠ [] ∧ word.toList = '-' :: '-' :: body ∧ ofWord word = ofLong body) ∨
      (∃ letters, letters ≠ [] ∧ word.toList = '-' :: letters ∧
        (∀ letter ∈ letters, isLetter letter = true) ∧
        ofWord word = .cluster (Cluster.ofLetters letters)) ∨
      ofWord word = .plain := by
  unfold ofWord
  split
  · next wordEq => exact Or.inl ⟨wordEq, rfl⟩
  · next body nonempty wordEq => exact Or.inr (Or.inl ⟨body, nonempty, wordEq, rfl⟩)
  · next letter letters _ _ wordEq =>
    split
    · next known =>
      refine Or.inr (Or.inr (Or.inl ⟨letter :: letters, by simp, wordEq, ?_, rfl⟩))
      exact List.all_eq_true.mp known
    · exact Or.inr (Or.inr (Or.inr rfl))
  · exact Or.inr (Or.inr (Or.inr rfl))

theorem head?_eq_hyphen (notPlain : ofWord word ≠ .plain) : word.toList.head? = some '-' := by
  rcases ofWord_cases word with ⟨wordEq, -⟩ | ⟨body, -, wordEq, -⟩ | ⟨letters, -, wordEq, -, -⟩ |
    plain
  · simp [wordEq]
  · simp [wordEq]
  · simp [wordEq]
  · exact absurd plain notPlain

theorem ofWord_long {body : List Char} (nonempty : body ≠ [])
    (wordEq : word.toList = '-' :: '-' :: body) : ofWord word = ofLong body := by
  unfold ofWord
  rw [wordEq]
  cases body with
  | nil => exact absurd rfl nonempty
  | cons character body => rfl

theorem ofWord_eq_option_iff :
    ofWord word = .option option ↔ word.toList = '-' :: '-' :: option.name.toList := by
  constructor
  · intro token
    rcases ofWord_cases word with ⟨-, tokenEq⟩ | ⟨body, -, wordEq, tokenEq⟩ |
      ⟨letters, -, -, -, tokenEq⟩ | tokenEq
    · simp [tokenEq] at token
    · rw [wordEq, ← ofLong_eq_option_iff.mp (tokenEq.symm.trans token)]
    · simp [tokenEq] at token
    · simp [tokenEq] at token
  · intro wordEq
    rw [ofWord_long (by cases option <;> decide) wordEq]
    exact ofLong_eq_option_iff.mpr rfl

theorem ofWord_eq_optionValue_iff :
    ofWord word = .optionValue option value ↔
      word.toList = '-' :: '-' :: (option.name.toList ++ '=' :: value.toList) := by
  constructor
  · intro token
    rcases ofWord_cases word with ⟨-, tokenEq⟩ | ⟨body, -, wordEq, tokenEq⟩ |
      ⟨letters, -, -, -, tokenEq⟩ | tokenEq
    · simp [tokenEq] at token
    · rw [wordEq, ← ofLong_eq_optionValue_iff.mp (tokenEq.symm.trans token)]
    · simp [tokenEq] at token
    · simp [tokenEq] at token
  · intro wordEq
    rw [ofWord_long (by simp) wordEq]
    exact ofLong_eq_optionValue_iff.mpr rfl

theorem ofWord_eq_separator_iff : ofWord word = .separator ↔ word = "--" := by
  constructor
  · intro token
    rcases ofWord_cases word with ⟨wordEq, -⟩ | ⟨body, -, -, tokenEq⟩ |
      ⟨letters, -, -, -, tokenEq⟩ | tokenEq
    · exact String.toList_injective wordEq
    · exact absurd (tokenEq.symm.trans token) (ofLong_ne_separator body)
    · simp [tokenEq] at token
    · simp [tokenEq] at token
  · rintro rfl
    decide

theorem ofWord_eq_flag {flag : Flag} (token : ofWord word = .flag flag) :
    word = "--" ++ flag.name := by
  rcases ofWord_cases word with ⟨-, tokenEq⟩ | ⟨body, -, wordEq, tokenEq⟩ |
    ⟨letters, -, -, -, tokenEq⟩ | tokenEq
  · simp [tokenEq] at token
  · apply String.toList_injective
    rw [wordEq, ofLong_eq_flag (tokenEq.symm.trans token)]
    simp
  · simp [tokenEq] at token
  · simp [tokenEq] at token

theorem ofWord_cluster {letters : List Char} (nonempty : letters ≠ [])
    (known : ∀ letter ∈ letters, isLetter letter = true) :
    ofWord (String.ofList ('-' :: letters)) = .cluster (Cluster.ofLetters letters) := by
  cases letters with
  | nil => exact absurd rfl nonempty
  | cons letter letters =>
      -- The hyphen is no letter, so the word is no long option.
      have noHyphen : letter ≠ '-' := by
        rintro rfl
        exact absurd (known '-' List.mem_cons_self) (by decide)
      have all : (letter :: letters).all isLetter = true := List.all_eq_true.mpr known
      unfold ofWord
      rw [String.toList_ofList]
      simp [noHyphen, all]

theorem letters_of_ofWord_eq_cluster (token : ofWord word = .cluster cluster) :
    ∃ letters, letters ≠ [] ∧ word.toList = '-' :: letters ∧
      (∀ letter ∈ letters, isLetter letter = true) ∧ cluster = Cluster.ofLetters letters := by
  rcases ofWord_cases word with ⟨-, tokenEq⟩ | ⟨body, -, -, tokenEq⟩ |
    ⟨letters, nonempty, wordEq, known, tokenEq⟩ | tokenEq
  · simp [tokenEq] at token
  · exact absurd (tokenEq.symm.trans token) (ofLong_ne_cluster body)
  · rw [tokenEq] at token
    cases token
    exact ⟨letters, nonempty, wordEq, known, rfl⟩
  · simp [tokenEq] at token

end Token

namespace Cluster

/-- The options that have a letter. -/
theorem option_ne_language {letters : List Char} {option : ValueOption} {value : Option String}
    (optionEq : (ofLetters letters).option = some (option, value)) : option ≠ .language := by
  induction letters with
  | nil => simp [ofLetters] at optionEq
  | cons letter letters ih =>
      unfold ofLetters at optionEq
      split at optionEq
      · next wanted found =>
        simp only [Option.some.injEq, Prod.mk.injEq] at optionEq
        obtain ⟨rfl, -⟩ := optionEq
        rintro rfl
        unfold ValueOption.ofLetter? at found
        split at found <;> cases found
      · exact ih optionEq

/-- A cluster without flags whose option waits for its value is one letter. -/
theorem letters_of_waiting_alone {letters : List Char} {option : ValueOption}
    (known : ∀ letter ∈ letters, isLetter letter = true)
    (clusterEq : ofLetters letters = ⟨[], some (option, none)⟩) :
    letters = ['c'] ∨ letters = ['t'] := by
  cases letters with
  | nil => simp [ofLetters] at clusterEq
  | cons letter letters =>
      unfold ofLetters at clusterEq
      split at clusterEq
      · next wanted found =>
        have lone : letters = [] := by
          by_contra more
          simp [more] at clusterEq
        subst lone
        unfold ValueOption.ofLetter? at found
        split at found
        · exact Or.inl rfl
        · exact Or.inr rfl
        · cases found
      · next unknown =>
        have isFlag : (Flag.ofLetter? letter).isSome = true := by
          simpa [isLetter, unknown] using known letter List.mem_cons_self
        obtain ⟨flag, flagEq⟩ := Option.isSome_iff_exists.mp isFlag
        simp [flagEq] at clusterEq

end Cluster

theorem Token.option_ne_language {word : String} {cluster : Cluster} {option : ValueOption}
    {value : Option String} (token : ofWord word = .cluster cluster)
    (optionEq : cluster.option = some (option, value)) : option ≠ .language := by
  obtain ⟨letters, -, -, -, rfl⟩ := letters_of_ofWord_eq_cluster token
  exact Cluster.option_ne_language optionEq

end CaseHarness.CommandLine
