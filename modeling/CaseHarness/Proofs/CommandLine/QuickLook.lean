import CaseHarness.CommandLine.Answer
import CaseHarness.Proofs.CommandLine.Accepted
import CaseHarness.Proofs.CommandLine.Spelling

/-!
# The quick look for a language

Before a command line is read, a quick look at its words finds the language of the answers.
On an accepted command line it finds the value of `--lang` unless it goes astray in one of
two ways: it stops at the value of an option that ends a cluster, which it takes for the
program, or it passes into the words of the invocation and finds a language there.
-/

namespace CaseHarness.CommandLine

/-- The word gives the language, alone or together with its value. -/
def NamesLanguage (word : String) : Prop :=
  Token.ofWord word = .option .language ∨ ∃ value, Token.ofWord word = .optionValue .language value

/-- The word is a cluster of flags and, at its end, an option that waits for its value. -/
def BundlesOption (word : String) : Prop :=
  ∃ flags option, flags ≠ [] ∧ Token.ofWord word = .cluster ⟨flags, some (option, none)⟩

/-- Before any language is given, an option at the end of a cluster of flags has a value in
the next word that does not begin with a hyphen. -/
def LookStops (front : List String) : Prop :=
  ∃ before cluster value after, front = before ++ cluster :: value :: after ∧
    (∀ word ∈ before, ¬ NamesLanguage word) ∧ BundlesOption cluster ∧
    value.toList.head? ≠ some '-'

section Look

variable {word : String} {rest front : List String}

theorem lookStops_nil : ¬ LookStops [] := by
  rintro ⟨before, cluster, value, after, frontEq, -⟩
  simp at frontEq

theorem lookStops_cons_iff :
    LookStops (word :: front) ↔
      (BundlesOption word ∧ ∃ value after, front = value :: after ∧
        value.toList.head? ≠ some '-') ∨
      (¬ NamesLanguage word ∧ LookStops front) := by
  constructor
  · rintro ⟨before, cluster, value, after, frontEq, unnamed, bundles, noHyphen⟩
    cases before with
    | nil =>
        simp only [List.nil_append, List.cons.injEq] at frontEq
        obtain ⟨rfl, rfl⟩ := frontEq
        exact Or.inl ⟨bundles, value, after, rfl, noHyphen⟩
    | cons first before =>
        simp only [List.cons_append, List.cons.injEq] at frontEq
        obtain ⟨rfl, rfl⟩ := frontEq
        refine Or.inr ⟨unnamed word List.mem_cons_self, before, cluster, value, after, rfl, ?_,
          bundles, noHyphen⟩
        exact fun other mem => unnamed other (List.mem_cons_of_mem word mem)
  · rintro (⟨bundles, value, after, rfl, noHyphen⟩ |
      ⟨unnamedWord, before, cluster, value, after, rfl, unnamed, bundles, noHyphen⟩)
    · exact ⟨[], word, value, after, rfl, by simp, bundles, noHyphen⟩
    · refine ⟨word :: before, cluster, value, after, rfl, ?_, bundles, noHyphen⟩
      intro other mem
      rcases List.mem_cons.mp mem with rfl | restMem
      · exact unnamedWord
      · exact unnamed other restMem

/-- The look passes the words that wait for their values by themselves. -/
theorem mem_passedWithValue_iff :
    word ∈ passedWithValue ↔
      (∃ option, option ≠ .language ∧ Token.ofWord word = .option option) ∨
        ∃ option, Token.ofWord word = .cluster ⟨[], some (option, none)⟩ := by
  constructor
  · intro mem
    have spellings : word = "-c" ∨ word = "--config" ∨ word = "-t" ∨ word = "--timeout" ∨
        word = "--report" := by
      simpa [passedWithValue] using mem
    rcases spellings with rfl | rfl | rfl | rfl | rfl
    · exact Or.inr ⟨.config, by decide⟩
    · exact Or.inl ⟨.config, by decide, by decide⟩
    · exact Or.inr ⟨.timeout, by decide⟩
    · exact Or.inl ⟨.timeout, by decide, by decide⟩
    · exact Or.inl ⟨.report, by decide, by decide⟩
  · rintro (⟨option, notLanguage, token⟩ | ⟨option, token⟩)
    · have wordEq := Token.ofWord_eq_option_iff.mp token
      rw [← String.ofList_toList (s := word), wordEq]
      cases option with
      | language => exact absurd rfl notLanguage
      | config | timeout | report => decide
    · obtain ⟨letters, -, wordEq, known, clusterEq⟩ := Token.letters_of_ofWord_eq_cluster token
      rw [← String.ofList_toList (s := word), wordEq]
      rcases Cluster.letters_of_waiting_alone known clusterEq.symm with rfl | rfl <;> decide

theorem after?_lang_eq_some_iff {tag : List Char} :
    Text.after? "--lang=".toList word.toList = some tag ↔
      Token.ofWord word = .optionValue .language (String.ofList tag) := by
  rw [Text.after?_eq_some_iff, Token.ofWord_eq_optionValue_iff]
  simp [ValueOption.name]

theorem eq_lang_iff : word = "--lang" ↔ Token.ofWord word = .option .language := by
  rw [Token.ofWord_eq_option_iff]
  exact String.toList_inj.symm

/-- What the quick look does at a word depends on what the word is to the reader. -/
theorem scanLanguage?_cons (word : String) (rest : List String) :
    scanLanguage? (word :: rest) =
      match Token.ofWord word with
      | .optionValue .language tag => some tag
      | .option .language => rest.head?
      | .option _ | .cluster ⟨[], some (_, none)⟩ => scanLanguage? rest.tail
      | .plain => if word.toList.head? = some '-' then scanLanguage? rest else none
      | _ => scanLanguage? rest := by
  rw [scanLanguage?.eq_def]
  dsimp only
  -- The look tests spellings; each test that fails rules out the tokens spelled that way.
  cases after : Text.after? "--lang=".toList word.toList with
  | some tag => rw [after?_lang_eq_some_iff.mp after]
  | none =>
      have notJoined (tag : String) : Token.ofWord word ≠ .optionValue .language tag := by
        intro token
        rw [← String.ofList_toList (s := tag), ← after?_lang_eq_some_iff, after] at token
        cases token
      dsimp only
      by_cases alone : word = "--lang"
      · rw [if_pos alone, eq_lang_iff.mp alone]
      · have notAlone : Token.ofWord word ≠ .option .language := fun token =>
          alone (eq_lang_iff.mpr token)
        rw [if_neg alone]
        by_cases passed : word ∈ passedWithValue
        · rw [if_pos passed]
          rcases mem_passedWithValue_iff.mp passed with ⟨option, notLanguage, token⟩ |
            ⟨option, token⟩
          · rw [token]
            cases option with
            | language => exact absurd rfl notLanguage
            | config | timeout | report => cases rest <;> rfl
          · rw [token]
            cases rest <;> rfl
        · have notWaiting (option : ValueOption) :
              Token.ofWord word ≠ .cluster ⟨[], some (option, none)⟩ := fun token =>
            passed (mem_passedWithValue_iff.mpr (Or.inr ⟨option, token⟩))
          have notOption (option : ValueOption) : Token.ofWord word ≠ .option option := by
            intro token
            by_cases isLanguage : option = .language
            · exact notAlone (isLanguage ▸ token)
            · exact passed (mem_passedWithValue_iff.mpr (Or.inl ⟨option, isLanguage, token⟩))
          rw [if_neg passed]
          by_cases plain : Token.ofWord word = .plain
          · rw [plain]
          · rw [if_pos (Token.head?_eq_hyphen plain)]
            split
            · next tag token => exact absurd token (notJoined tag)
            · next token => exact absurd token notAlone
            · next option _ token => exact absurd token (notOption option)
            · next option token => exact absurd token (notWaiting option)
            · next token => exact absurd token plain
            · rfl

theorem scanLanguage?_option {option : ValueOption} (token : Token.ofWord word = .option option)
    (notLanguage : option ≠ .language) :
    scanLanguage? (word :: rest) = scanLanguage? rest.tail := by
  rw [scanLanguage?_cons, token]
  cases option with
  | language => exact absurd rfl notLanguage
  | config | timeout | report => rfl

theorem scanLanguage?_optionValue {option : ValueOption} {value : String}
    (token : Token.ofWord word = .optionValue option value) (notLanguage : option ≠ .language) :
    scanLanguage? (word :: rest) = scanLanguage? rest := by
  rw [scanLanguage?_cons, token]
  cases option with
  | language => exact absurd rfl notLanguage
  | config | timeout | report => rfl

theorem scanLanguage?_cluster {cluster : Cluster} (token : Token.ofWord word = .cluster cluster)
    (notAlone : ∀ option, cluster ≠ ⟨[], some (option, none)⟩) :
    scanLanguage? (word :: rest) = scanLanguage? rest := by
  rw [scanLanguage?_cons, token]
  split
  · next named => cases named
  · next named => cases named
  · next named => cases named
  · next option named =>
    cases named
    exact absurd rfl (notAlone option)
  · next named => cases named
  · rfl

end Look

section Options

variable {options applied : Options} {option : ValueOption} {value tag : String}

theorem Options.language_of_assign (assigns : options.assign option value = .ok applied) :
    applied.language = if option = .language then some value else options.language := by
  cases option
  all_goals
    simp only [assign] at assigns
    repeat' split at assigns
    all_goals cases assigns
    all_goals rfl

theorem Options.language_eq_none_of_assign
    (assigns : options.assign .language value = .ok applied) : options.language = none := by
  simp only [assign] at assigns
  split at assigns
  · cases assigns
  · next unset => simpa using unset

theorem Options.language_eq_some_of_assign (assigns : options.assign option value = .ok applied)
    (given : options.language = some tag) : applied.language = some tag := by
  by_cases isLanguage : option = .language
  · subst isLanguage
    rw [language_eq_none_of_assign assigns] at given
    cases given
  · rw [language_of_assign assigns, if_neg isLanguage, given]

theorem Options.language_of_raise {flag : Flag} (raises : options.raise flag = .ok applied) :
    applied.language = options.language := by
  cases flag with
  | verbose =>
      simp only [raise] at raises
      split at raises
      · cases raises
      · cases raises
        rfl
  | help | version => cases raises

theorem Options.language_of_raiseAll {flags : List Flag}
    (raises : options.raiseAll flags = .ok applied) : applied.language = options.language := by
  induction flags generalizing options with
  | nil =>
      cases raises
      rfl
  | cons flag flags ih =>
      unfold raiseAll at raises
      split at raises
      · next raised raisesFirst => rw [ih raises, language_of_raise raisesFirst]
      · cases raises

theorem Options.language_of_applyCluster {word : String} {cluster : Cluster}
    {waiting : Option Pending} (token : Token.ofWord word = .cluster cluster)
    (applies : options.applyCluster cluster = .ok (applied, waiting)) :
    applied.language = options.language := by
  obtain ⟨letters, -, -, -, rfl⟩ := Token.letters_of_ofWord_eq_cluster token
  obtain ⟨raised, raises, ⟨-, rfl, -⟩ | ⟨option, value, optionEq, assigns, -⟩ | ⟨-, -, rfl, -⟩⟩ :=
    applyCluster_eq_ok applies
  · exact language_of_raiseAll raises
  · rw [language_of_assign assigns, if_neg (Cluster.option_ne_language optionEq),
      language_of_raiseAll raises]
  · exact language_of_raiseAll raises

end Options

section Accepted

variable {options : Options} {words : List String} {arguments : Arguments}

theorem Accepts.invocation_suffix (accepts : Accepts options words arguments) :
    arguments.invocation <:+ words := by
  induction accepts with
  | nothing => exact List.suffix_refl _
  | separated token => exact List.suffix_cons _ _
  | positional token => exact List.suffix_refl _
  | flag _ _ _ ih | joined _ _ _ ih | cluster _ _ _ ih => exact ih.trans (List.suffix_cons _ _)
  | apart _ _ _ _ ih | clusterApart _ _ _ _ _ ih =>
      exact ih.trans ((List.suffix_cons _ _).trans (List.suffix_cons _ _))

/-- A language that is given stays. -/
theorem Accepts.language_eq_some (accepts : Accepts options words arguments) {tag : String}
    (given : options.language = some tag) : arguments.options.language = some tag := by
  induction accepts with
  | nothing | separated | positional => exact given
  | flag _ raises _ ih => exact ih ((Options.language_of_raise raises).trans given)
  | joined _ assigns _ ih => exact ih (Options.language_eq_some_of_assign assigns given)
  | apart _ _ assigns _ ih => exact ih (Options.language_eq_some_of_assign assigns given)
  | cluster token applies _ ih =>
      exact ih ((Options.language_of_applyCluster token applies).trans given)
  | clusterApart token applies _ assigns _ ih =>
      exact ih (Options.language_eq_some_of_assign assigns
        ((Options.language_of_applyCluster token applies).trans given))

/-- What the look finds among words that lead to an invocation: it stops on the way to the
invocation, or it finds the language, or else it goes on in the invocation. -/
def Looks (words : List String) (arguments : Arguments) : Prop :=
  ∃ front, words = front ++ arguments.invocation ∧
    ((LookStops front ∧ scanLanguage? words = none) ∨
      (¬ LookStops front ∧ scanLanguage? words =
        arguments.options.language.or (scanLanguage? arguments.invocation)))

theorem Looks.pass (looks : Looks words arguments) (passed : List String)
    (scanEq : scanLanguage? (passed ++ words) = scanLanguage? words)
    (stopsIff : ∀ front, LookStops (passed ++ front) ↔ LookStops front) :
    Looks (passed ++ words) arguments := by
  obtain ⟨front, wordsEq, found⟩ := looks
  refine ⟨passed ++ front, by rw [wordsEq, List.append_assoc], ?_⟩
  rw [stopsIff, scanEq]
  exact found

/-- The look ends where it finds the language. -/
theorem Looks.found (accepts : Accepts options words arguments) (passed : List String)
    {tag : String}
    (given : arguments.options.language = some tag)
    (scanEq : scanLanguage? (passed ++ words) = some tag)
    (goesOn : ∀ front, ¬ LookStops (passed ++ front)) :
    Looks (passed ++ words) arguments := by
  obtain ⟨front, wordsEq⟩ := accepts.invocation_suffix
  refine ⟨passed ++ front, by rw [List.append_assoc, wordsEq], Or.inr ⟨goesOn front, ?_⟩⟩
  rw [scanEq, given, Option.some_or]

/-- The value of an option at the end of a cluster is passed if the cluster is the option alone
or the value begins with a hyphen, and else the look stops there. -/
theorem Looks.behindCluster {word value : String} {cluster : Cluster} {option : ValueOption}
    (looks : Looks words arguments) (token : Token.ofWord word = .cluster cluster)
    (ends : cluster.option = some (option, none)) (plain : Token.ofWord value = .plain) :
    Looks (word :: value :: words) arguments := by
  have unnamed : ¬ NamesLanguage word ∧ ¬ NamesLanguage value ∧ ¬ BundlesOption value := by
    simp [NamesLanguage, BundlesOption, token, plain]
  by_cases alone : cluster.flags = []
  · have notBundles : ¬ BundlesOption word := by
      rintro ⟨flags, option, nonempty, named⟩
      rw [token] at named
      cases named
      exact nonempty alone
    refine looks.pass [word, value] ?_ fun front => ?_
    · have whole : cluster = ⟨[], some (option, none)⟩ := by rw [← alone, ← ends]
      rw [List.cons_append, scanLanguage?_cons, token, whole]
      rfl
    · simp [lookStops_cons_iff, unnamed, notBundles]
  · have bundles : BundlesOption word := ⟨cluster.flags, option, alone, by rw [token, ← ends]⟩
    have scanEq : scanLanguage? (word :: value :: words) =
        if value.toList.head? = some '-' then scanLanguage? words else none := by
      rw [scanLanguage?_cluster token fun option whole => alone (by rw [whole]),
        scanLanguage?_cons, plain]
    by_cases hyphen : value.toList.head? = some '-'
    · rw [if_pos hyphen] at scanEq
      refine looks.pass [word, value] scanEq fun front => ?_
      simp [lookStops_cons_iff, unnamed, hyphen]
    · rw [if_neg hyphen] at scanEq
      obtain ⟨front, wordsEq, -⟩ := looks
      refine ⟨word :: value :: front, by simp [wordsEq], Or.inl ⟨?_, scanEq⟩⟩
      exact lookStops_cons_iff.mpr (Or.inl ⟨bundles, value, front, rfl, hyphen⟩)

theorem looks_of_accepts (accepts : Accepts options words arguments)
    (unset : options.language = none) : Looks words arguments := by
  -- Each word is passed, unless it gives the language and so ends the look.
  induction accepts with
  | nothing => exact ⟨[], rfl, Or.inr ⟨lookStops_nil, by simp [unset]⟩⟩
  | @separated options word rest token =>
      refine ⟨[word], rfl, Or.inr ⟨?_, ?_⟩⟩
      · simp [lookStops_cons_iff, BundlesOption, NamesLanguage, token, lookStops_nil]
      · simp [scanLanguage?_cons, token, unset]
  | positional token => exact ⟨[], rfl, Or.inr ⟨lookStops_nil, by simp [unset]⟩⟩
  | @flag options raised word rest flag arguments token raises others ih =>
      have looks := ih ((Options.language_of_raise raises).trans unset)
      refine looks.pass [word] ?_ fun front => ?_
      · simp [scanLanguage?_cons, token]
      · simp [lookStops_cons_iff, BundlesOption, NamesLanguage, token]
  | @joined options assigned word value rest option arguments token assigns others ih =>
      have languageEq := Options.language_of_assign assigns
      by_cases isLanguage : option = .language
      · subst isLanguage
        rw [if_pos rfl] at languageEq
        refine Looks.found others [word] (others.language_eq_some languageEq) ?_
          fun front => ?_
        · simp [scanLanguage?_cons, token]
        · simp [lookStops_cons_iff, BundlesOption, NamesLanguage, token]
      · rw [if_neg isLanguage, unset] at languageEq
        refine (ih languageEq).pass [word] (scanLanguage?_optionValue token isLanguage)
          fun front => ?_
        simp [lookStops_cons_iff, BundlesOption, NamesLanguage, token, isLanguage]
  | @apart options assigned word value rest option arguments token plain assigns others ih =>
      have languageEq := Options.language_of_assign assigns
      by_cases isLanguage : option = .language
      · subst isLanguage
        rw [if_pos rfl] at languageEq
        refine Looks.found others [word, value] (others.language_eq_some languageEq) ?_
          fun front => ?_
        · simp [scanLanguage?_cons, token]
        · simp [lookStops_cons_iff, BundlesOption, NamesLanguage, token]
      · rw [if_neg isLanguage, unset] at languageEq
        refine (ih languageEq).pass [word, value]
          (scanLanguage?_option token isLanguage) fun front => ?_
        simp [lookStops_cons_iff, BundlesOption, NamesLanguage, token, plain, isLanguage]
  | @cluster options applied word rest cluster arguments token applies others ih =>
      have languageEq := (Options.language_of_applyCluster token applies).trans unset
      have complete (option : ValueOption) : cluster.option ≠ some (option, none) := fun ends =>
        nomatch (waits_iff_of_applyCluster applies).mpr ends
      have notBundles : ¬ BundlesOption word := by
        rintro ⟨flags, option, -, named⟩
        rw [token] at named
        cases named
        exact complete option rfl
      refine (ih languageEq).pass [word]
        (scanLanguage?_cluster token fun option whole => complete option (by rw [whole]))
        fun front => ?_
      simp [lookStops_cons_iff, notBundles, NamesLanguage, token]
  | @clusterApart options applied assigned word value rest cluster option arguments token applies
      plain assigns others ih =>
      have ends : cluster.option = some (option, none) :=
        (waits_iff_of_applyCluster applies).mp rfl
      refine (ih ?_).behindCluster token ends plain
      rw [Options.language_of_assign assigns, if_neg (Token.option_ne_language token ends),
        Options.language_of_applyCluster token applies, unset]

end Accepted

variable {words : List String} {arguments : Arguments}

/-- Too few words behind the options are answered with the usage, in the language that the
look found. -/
theorem answer_of_short (reads : read words = .ok arguments)
    (short : arguments.invocation.length < 2) (environment : Environment) :
    answer environment words = .exit 1 (usageLine
      (((scanLanguage? words.tail).map Language.resolve).getD environment.detect)) := by
  have tagEq : answerTag environment words =
      ((scanLanguage? words.tail).map Language.resolve).getD environment.detect := by
    unfold answerTag
    cases scanLanguage? words.tail <;> rfl
  simp only [answer, reads, if_pos short, tagEq]

/-- On a command line that can be read, the quick look finds the value of `--lang` exactly
if it does not stop at a value on the way to the program although a language is given, and
does not go on to find a language in the invocation although none is given.  Where it
finds it, the usage is in the language given, or else in that of the system. -/
theorem scanLanguage?_eq_language_iff (reads : read words = .ok arguments) :
    ∃ front, words.tail = front ++ arguments.invocation ∧
      (LookStops front → scanLanguage? words.tail = none) ∧
      (¬ LookStops front → scanLanguage? words.tail =
        arguments.options.language.or (scanLanguage? arguments.invocation)) ∧
      (scanLanguage? words.tail = arguments.options.language ↔
        (LookStops front → arguments.options.language = none) ∧
        (¬ LookStops front → arguments.options.language = none →
          scanLanguage? arguments.invocation = none)) ∧
      (scanLanguage? words.tail = arguments.options.language →
        arguments.invocation.length < 2 → ∀ environment,
          answer environment words = .exit 1 (usageLine
            ((arguments.options.language.map Language.resolve).getD environment.detect))) := by
  obtain ⟨front, wordsEq, looks⟩ := looks_of_accepts (accepts_of_read reads) rfl
  refine ⟨front, wordsEq, ?_, ?_, ?_, ?_⟩
  · intro stops
    rcases looks with ⟨-, scanEq⟩ | ⟨goesOn, -⟩
    · exact scanEq
    · exact absurd stops goesOn
  · intro goesOn
    rcases looks with ⟨stops, -⟩ | ⟨-, scanEq⟩
    · exact absurd stops goesOn
    · exact scanEq
  · rcases looks with ⟨stops, scanEq⟩ | ⟨goesOn, scanEq⟩
    · simp only [scanEq, stops, true_implies, not_true_eq_false, false_implies, and_true]
      exact eq_comm
    · rw [scanEq]
      cases arguments.options.language <;> simp [goesOn]
  · intro agree short environment
    rw [answer_of_short reads short environment, agree]

/-- The look passes flags and values and finds the language behind them. -/
theorem scanLanguage?_finds_behind_values :
    let words := ["tcf-runner", "-v", "-c", "F", "-t", "5", "--lang=zh-CN", "p"]
    read words = .ok ⟨⟨some "zh-CN", some "F", some 5, none, true⟩, ["p"]⟩ ∧
      scanLanguage? words.tail = some "zh-CN" ∧
      answer {} words = .exit 1 (usageLine "zh-CN") := by
  intro words
  have reads : read words = .ok ⟨⟨some "zh-CN", some "F", some 5, none, true⟩, ["p"]⟩ := by
    decide
  have found : scanLanguage? words.tail = some "zh-CN" := by decide
  have resolved : Language.resolve "zh-CN" = "zh-CN" := by decide
  obtain ⟨front, -, -, -, -, usage⟩ := scanLanguage?_eq_language_iff reads
  refine ⟨reads, found, ?_⟩
  rw [usage found (by decide) {}, Option.map_some, Option.getD_some, resolved]

/-- The value of an option that ends a cluster is taken for the program, so a language given
behind it is not found, and the usage is in that of the system. -/
theorem scanLanguage?_stops_behind_cluster :
    read ["tcf-runner", "-vc", "F", "--lang", "zh-CN", "p"] =
        .ok ⟨⟨some "zh-CN", some "F", none, none, true⟩, ["p"]⟩ ∧
      scanLanguage? ["-vc", "F", "--lang", "zh-CN", "p"] = none ∧
      answer {} ["tcf-runner", "-vc", "F", "--lang", "zh-CN", "p"] = .exit 1 (usageLine "en") ∧
      usageLine "en" ≠ usageLine "zh-CN" := by
  decide

end CaseHarness.CommandLine
