import CaseHarness.Proofs.CommandLine.Accepted
import CaseHarness.Proofs.CommandLine.Choosing
import CaseHarness.Proofs.CommandLine.Spelling

/-!
# Where the options end

The words of a command line that asks for a run fall into three parts: words that give options,
the separator or nothing, and the invocation.  What the words of the first part give is told
here by their spelling alone.  The reader arrives at certain arguments exactly if the words can
be divided in this way and what they give is, each thing once, what the options of these
arguments say; so a word behind the first part never adds to the options.
-/

namespace CaseHarness.CommandLine

/-- The letter of an option that has one. -/
def ValueOption.letter? : ValueOption → Option Char
  | config => some 'c'
  | timeout => some 't'
  | language | report => none

/-- How a cluster begins, and what this says: a hyphen alone or with the letter of the flag. -/
inductive ClusterOpens : List Char → List Choice → Prop
  | hyphen : ClusterOpens ['-'] []
  | verbose : ClusterOpens ['-', 'v'] [.verbose]

/-- Words that are read together, and the choices that they give.  A value in a word of its own
may be any word that is nothing else to the reader, and a value behind letters consists of
letters of options. -/
inductive Gives : List String → List Choice → Prop
  | flagName : Gives ["--verbose"] [.verbose]
  | flagLetter : Gives ["-v"] [.verbose]
  | joined {choice : Choice} {option : ValueOption} {value : String}
      (text : choice.HasText option value) :
      Gives ["--" ++ option.name ++ "=" ++ value] [choice]
  | apart {choice : Choice} {option : ValueOption} {value : String}
      (text : choice.HasText option value) (plain : Token.ofWord value = .plain) :
      Gives ["--" ++ option.name, value] [choice]
  | cluster {opening : List Char} {flags : List Choice} {choice : Choice} {option : ValueOption}
      {letter : Char} {value : String} (opens : ClusterOpens opening flags)
      (lettered : option.letter? = some letter) (text : choice.HasText option value)
      (nonempty : value ≠ "") (letters : ∀ other ∈ value.toList, isLetter other = true) :
      Gives [String.ofList (opening ++ letter :: value.toList)] (flags ++ [choice])
  | clusterApart {opening : List Char} {flags : List Choice} {choice : Choice}
      {option : ValueOption} {letter : Char} {value : String}
      (opens : ClusterOpens opening flags) (lettered : option.letter? = some letter)
      (text : choice.HasText option value) (plain : Token.ofWord value = .plain) :
      Gives [String.ofList (opening ++ [letter]), value] (flags ++ [choice])

/-- What stands between the options and the invocation: the separator, or nothing in front of a
word that is nothing else to the reader. -/
inductive Boundary : List String → List String → Prop
  | separator {invocation : List String} : Boundary ["--"] invocation
  | program {program : String} {others : List String}
      (plain : Token.ofWord program = .plain) : Boundary [] (program :: others)

namespace Cluster

/-- The flags that the letters of a cluster stand for, and the letter of its option with what
follows. -/
theorem letters_cases {letters : List Char}
    (known : ∀ letter ∈ letters, isLetter letter = true) :
    ∃ front : List Char, front.map Flag.ofLetter? = (ofLetters letters).flags.map some ∧
      (((ofLetters letters).option = none ∧ letters = front) ∨
        ∃ option letter rest, option.letter? = some letter ∧ letters = front ++ letter :: rest ∧
          (ofLetters letters).option =
            some (option, if rest = [] then none else some (String.ofList rest))) := by
  induction letters with
  | nil => exact ⟨[], rfl, Or.inl ⟨rfl, rfl⟩⟩
  | cons letter letters ih =>
      obtain ⟨knownFirst, knownOthers⟩ := List.forall_mem_cons.mp known
      cases found : ValueOption.ofLetter? letter with
      | some option =>
          refine ⟨[], by simp [ofLetters, found], Or.inr ⟨option, letter, letters, ?_, rfl, ?_⟩⟩
          · unfold ValueOption.ofLetter? at found
            split at found <;> cases found <;> rfl
          · simp [ofLetters, found]
      | none =>
          have raised : (Flag.ofLetter? letter).isSome = true := by
            simpa [isLetter, found] using knownFirst
          obtain ⟨flag, flagEq⟩ := Option.isSome_iff_exists.mp raised
          obtain ⟨front, flagsEq, rest⟩ := ih knownOthers
          refine ⟨letter :: front, by simp [ofLetters, found, flagEq, flagsEq], ?_⟩
          simp only [ofLetters, found, List.cons_append, List.cons.injEq, true_and]
          exact rest

end Cluster

section Clusters

variable {options applied assigned raised : Options} {word value : String} {cluster : Cluster}
  {waiting : Option Pending} {option : ValueOption}

/-- Flags that can be raised open a cluster, and raising them makes the choices that this says. -/
theorem exists_opens_of_raiseAll {front : List Char} {flags : List Flag}
    (named : front.map Flag.ofLetter? = flags.map some)
    (raises : options.raiseAll flags = .ok raised) :
    ∃ given, ClusterOpens ('-' :: front) given ∧ options.Makes given raised := by
  rcases Options.raiseAll_eq_ok_iff.mp raises with ⟨rfl, rfl⟩ | ⟨rfl, makes⟩
  · have empty : front = [] := by simpa using named
    rw [empty]
    exact ⟨[], .hyphen, .nothing⟩
  · cases front with
    | nil => simp at named
    | cons letter front =>
        simp only [List.map_cons, List.map_nil, List.cons.injEq, List.map_eq_nil_iff] at named
        obtain ⟨isFlag, rfl⟩ := named
        have letterEq : letter = 'v' := by
          unfold Flag.ofLetter? at isFlag
          split at isFlag <;> first | rfl | cases isFlag
        rw [letterEq]
        exact ⟨[.verbose], .verbose, makes⟩

/-- What can be applied of a cluster: the letter of the flag alone, or an option with its value
or without one. -/
theorem applyCluster_cases (token : Token.ofWord word = .cluster cluster)
    (applies : options.applyCluster cluster = .ok (applied, waiting)) :
    (waiting = none ∧ ∃ given, Gives [word] given ∧ options.Makes given applied) ∨
      ∃ option opening given letter, waiting = some ⟨option, none⟩ ∧
        ClusterOpens opening given ∧ option.letter? = some letter ∧
        word = String.ofList (opening ++ [letter]) ∧ options.Makes given applied := by
  obtain ⟨letters, nonempty, wordEq, known, rfl⟩ := Token.letters_of_ofWord_eq_cluster token
  obtain ⟨front, named, rest⟩ := Cluster.letters_cases known
  obtain ⟨raised, raises, outcome⟩ := applyCluster_eq_ok applies
  obtain ⟨given, opens, makes⟩ := exists_opens_of_raiseAll named raises
  have spelled : word = String.ofList ('-' :: letters) := by
    rw [← wordEq, String.ofList_toList]
  rcases rest with ⟨noOption, lettersEq⟩ | ⟨option, letter, rest, lettered, lettersEq, optionEq⟩
  · subst lettersEq
    rw [noOption] at outcome
    obtain ⟨-, rfl, waitingEq⟩ | ⟨_, _, other, -⟩ | ⟨_, other, -⟩ := outcome
    · refine Or.inl ⟨waitingEq, [.verbose], ?_, ?_⟩
      · cases opens with
        | hyphen => exact absurd rfl nonempty
        | verbose =>
            rw [spelled]
            exact .flagLetter
      · cases opens with
        | hyphen => exact absurd rfl nonempty
        | verbose => exact makes
    · cases other
    · cases other
  · rw [optionEq] at outcome
    subst lettersEq
    obtain ⟨other, -⟩ | ⟨_, value, someEq, assigns, waitingEq⟩ | ⟨_, someEq, rfl, waitingEq⟩ :=
      outcome
    · cases other
    · by_cases noRest : rest = []
      · simp [noRest] at someEq
      · simp only [if_neg noRest, Option.some.injEq, Prod.mk.injEq] at someEq
        obtain ⟨rfl, rfl⟩ := someEq
        obtain ⟨choice, text, makesChoice⟩ := Options.assign_eq_ok_iff.mp assigns
        refine Or.inl ⟨waitingEq, given ++ [choice], ?_, makes.append makesChoice⟩
        have knownRest : ∀ other ∈ rest, isLetter other = true := fun other mem =>
          known other (by simp [mem])
        have gives : Gives [String.ofList ('-' :: front ++ letter :: (String.ofList rest).toList)]
            (given ++ [choice]) :=
          .cluster opens lettered text (by simpa using noRest) (by simpa using knownRest)
        rw [String.toList_ofList] at gives
        rw [spelled]
        exact gives
    · have noRest : rest = [] := by
        by_contra more
        simp [more] at someEq
      simp only [noRest, if_true, Option.some.injEq, Prod.mk.injEq, and_true] at someEq
      subst someEq
      refine Or.inr ⟨option, '-' :: front, given, letter, waitingEq, opens, lettered, ?_, makes⟩
      rw [spelled, noRest]
      rfl

/-- What opens a cluster stands for flags that can be raised. -/
theorem ClusterOpens.raises {opening : List Char} {given : List Choice}
    (opens : ClusterOpens opening given) (makes : options.Makes given raised) :
    ∃ front flags, opening = '-' :: front ∧ (∀ letter ∈ front, isLetter letter = true) ∧
      options.raiseAll flags = .ok raised ∧
      ∀ letters, Cluster.ofLetters (front ++ letters) =
        ⟨flags ++ (Cluster.ofLetters letters).flags, (Cluster.ofLetters letters).option⟩ := by
  cases opens with
  | hyphen =>
      cases makes
      exact ⟨[], [], rfl, by simp, rfl, fun letters => rfl⟩
  | verbose =>
      have raises : options.raiseAll [.verbose] = .ok raised :=
        Options.raiseAll_eq_ok_iff.mpr (Or.inr ⟨rfl, makes⟩)
      have known : ['v'].all isLetter = true := by decide
      exact ⟨['v'], [.verbose], rfl, List.all_eq_true.mp known, raises, fun letters => rfl⟩

theorem ValueOption.ofLetter?_of_letter? {letter : Char} (lettered : option.letter? = some letter) :
    ofLetter? letter = some option := by
  cases option <;> cases lettered <;> rfl

/-- A cluster that ends in the letter of an option, or goes on with the value of this option. -/
theorem ClusterOpens.token {opening rest : List Char} {given : List Choice} {letter : Char}
    (opens : ClusterOpens opening given) (makes : options.Makes given raised)
    (lettered : option.letter? = some letter) (known : ∀ other ∈ rest, isLetter other = true) :
    ∃ flags, options.raiseAll flags = .ok raised ∧
      Token.ofWord (String.ofList (opening ++ letter :: rest)) =
        .cluster ⟨flags, some (option, if rest = [] then none else some (String.ofList rest))⟩ := by
  obtain ⟨front, flags, rfl, knownFront, raises, ofLetters⟩ := opens.raises makes
  have found := ValueOption.ofLetter?_of_letter? lettered
  have knownAll : ∀ other ∈ front ++ letter :: rest, isLetter other = true := by
    intro other mem
    rcases List.mem_append.mp mem with inFront | inRest
    · exact knownFront other inFront
    · rcases List.mem_cons.mp inRest with rfl | inRest
      · simp [isLetter, found]
      · exact known other inRest
  have token := Token.ofWord_cluster (by simp) knownAll
  refine ⟨flags, raises, ?_⟩
  rw [List.cons_append, token, ofLetters]
  simp [Cluster.ofLetters, found]

end Clusters

section Division

variable {options middle : Options} {tail piece : List String} {pieces : List (List String)}
  {given : List Choice} {arguments : Arguments}

/-- Words that give choices, in front of words that are accepted. -/
theorem Accepts.of_gives (gives : Gives piece given) (makes : options.Makes given middle)
    (others : Accepts middle tail arguments) : Accepts options (piece ++ tail) arguments := by
  cases gives with
  | flagName =>
      exact .flag (by decide) (Options.raise_eq_ok_iff.mpr ⟨rfl, makes⟩) others
  | flagLetter =>
      have token : Token.ofWord "-v" = .cluster ⟨[.verbose], none⟩ := by decide
      have applies : options.applyCluster ⟨[.verbose], none⟩ = .ok (middle, none) := by
        simp [Options.applyCluster, Options.raiseAll_eq_ok_iff.mpr (Or.inr ⟨rfl, makes⟩)]
      exact .cluster token applies others
  | @joined choice option value text =>
      have token : Token.ofWord ("--" ++ option.name ++ "=" ++ value) =
          .optionValue option value := by
        rw [Token.ofWord_eq_optionValue_iff]
        simp
      exact .joined token (Options.assign_eq_ok_iff.mpr ⟨choice, text, makes⟩) others
  | @apart choice option value text plain =>
      have token : Token.ofWord ("--" ++ option.name) = .option option := by
        rw [Token.ofWord_eq_option_iff]
        simp
      exact .apart token plain (Options.assign_eq_ok_iff.mpr ⟨choice, text, makes⟩) others
  | @cluster opening flags choice option letter value opens lettered text nonempty letters =>
      obtain ⟨raised, makesFlags, makesChoice⟩ := Options.makes_append_iff.mp makes
      obtain ⟨raisedFlags, raises, token⟩ := opens.token makesFlags lettered letters
      have assigns := Options.assign_eq_ok_iff.mpr ⟨choice, text, makesChoice⟩
      have notEmpty : value.toList ≠ [] := by simpa using nonempty
      rw [if_neg notEmpty, String.ofList_toList] at token
      exact .cluster token (by simp [Options.applyCluster, raises, assigns, Except.map]) others
  | @clusterApart opening flags choice option letter value opens lettered text plain =>
      obtain ⟨raised, makesFlags, makesChoice⟩ := Options.makes_append_iff.mp makes
      have noRest : ∀ other ∈ ([] : List Char), isLetter other = true := by simp
      obtain ⟨raisedFlags, raises, token⟩ := opens.token makesFlags lettered noRest
      have assigns := Options.assign_eq_ok_iff.mpr ⟨choice, text, makesChoice⟩
      rw [if_pos rfl] at token
      exact .clusterApart token (by simp [Options.applyCluster, raises]) plain assigns others

/-- Words that are accepted are divided into words that give choices, what stands between, and
the invocation. -/
theorem Accepts.divided {words : List String} (accepts : Accepts options words arguments)
    (nonempty : arguments.invocation ≠ []) :
    ∃ pieces given separator, words = pieces.flatten ++ separator ++ arguments.invocation ∧
      List.Forall₂ Gives pieces given ∧ Boundary separator arguments.invocation ∧
      options.Makes given.flatten arguments.options := by
  -- What is read first becomes one more piece.
  have further {options middle : Options} {piece words : List String} {first : List Choice}
      {arguments : Arguments} (gives : Gives piece first) (makes : options.Makes first middle)
      (others : ∃ pieces given separator,
        words = pieces.flatten ++ separator ++ arguments.invocation ∧
        List.Forall₂ Gives pieces given ∧ Boundary separator arguments.invocation ∧
        middle.Makes given.flatten arguments.options) :
      ∃ pieces given separator,
        piece ++ words = pieces.flatten ++ separator ++ arguments.invocation ∧
        List.Forall₂ Gives pieces given ∧ Boundary separator arguments.invocation ∧
        options.Makes given.flatten arguments.options := by
    obtain ⟨pieces, given, separator, wordsEq, allGive, boundary, makesOthers⟩ := others
    refine ⟨piece :: pieces, first :: given, separator, ?_, .cons gives allGive, boundary, ?_⟩
    · rw [wordsEq]
      simp
    · exact makes.append makesOthers
  induction accepts with
  | nothing => exact absurd rfl nonempty
  | separated token =>
      rw [Token.ofWord_eq_separator_iff.mp token]
      exact ⟨[], [], ["--"], rfl, .nil, .separator, .nothing⟩
  | positional token => exact ⟨[], [], [], rfl, .nil, .program token, .nothing⟩
  | flag token raises others ih =>
      obtain ⟨rfl, makes⟩ := Options.raise_eq_ok_iff.mp raises
      rw [Token.ofWord_eq_flag token]
      exact further .flagName makes (ih nonempty)
  | @joined options assigned word value rest option arguments token assigns others ih =>
      obtain ⟨choice, text, makes⟩ := Options.assign_eq_ok_iff.mp assigns
      have wordEq : word = "--" ++ option.name ++ "=" ++ value := by
        apply String.toList_injective
        rw [Token.ofWord_eq_optionValue_iff.mp token]
        simp
      rw [wordEq]
      exact further (.joined text) makes (ih nonempty)
  | @apart options assigned word value rest option arguments token plain assigns others ih =>
      obtain ⟨choice, text, makes⟩ := Options.assign_eq_ok_iff.mp assigns
      have wordEq : word = "--" ++ option.name := by
        apply String.toList_injective
        rw [Token.ofWord_eq_option_iff.mp token]
        simp
      rw [wordEq]
      exact further (.apart text plain) makes (ih nonempty)
  | cluster token applies others ih =>
      rcases applyCluster_cases token applies with ⟨-, given, gives, makes⟩ |
        ⟨_, _, _, _, waits, -⟩
      · exact further gives makes (ih nonempty)
      · cases waits
  | clusterApart token applies plain assigns others ih =>
      obtain ⟨choice, text, makesChoice⟩ := Options.assign_eq_ok_iff.mp assigns
      rcases applyCluster_cases token applies with ⟨waits, -⟩ |
        ⟨option, opening, given, letter, waits, opens, lettered, wordEq, makes⟩
      · cases waits
      · cases waits
        rw [wordEq]
        exact further (.clusterApart opens lettered text plain) (makes.append makesChoice)
          (ih nonempty)

/-- Pieces that give choices, in front of words that are accepted. -/
theorem Accepts.of_allGive {given : List (List Choice)} (allGive : List.Forall₂ Gives pieces given)
    (makes : options.Makes given.flatten middle) (others : Accepts middle tail arguments) :
    Accepts options (pieces.flatten ++ tail) arguments := by
  induction allGive generalizing options with
  | nil =>
      cases makes
      exact others
  | cons gives _ ih =>
      obtain ⟨next, makesFirst, makesOthers⟩ := Options.makes_append_iff.mp makes
      rw [List.flatten_cons, List.append_assoc]
      exact .of_gives gives makesFirst (ih makesOthers)

theorem Boundary.accepts {separator invocation : List String}
    (boundary : Boundary separator invocation) :
    Accepts options (separator ++ invocation) ⟨options, invocation⟩ := by
  cases boundary with
  | separator => exact .separated (by decide)
  | program plain => exact .positional plain

theorem Boundary.append {separator invocation : List String}
    (boundary : Boundary separator invocation) (more : List String) :
    Boundary separator (invocation ++ more) := by
  cases boundary with
  | separator => exact .separator
  | program plain => exact .program plain

/-- The reader arrives at arguments with an invocation exactly if the words can be divided: in
front words that give what the options say, each thing once, and last the invocation. -/
theorem accepts_iff_divided {words : List String} (nonempty : arguments.invocation ≠ []) :
    Accepts {} words arguments ↔
      ∃ pieces given separator, words = pieces.flatten ++ separator ++ arguments.invocation ∧
        List.Forall₂ Gives pieces given ∧ Boundary separator arguments.invocation ∧
        given.flatten.Perm arguments.options.choices ∧
        ∀ choice ∈ given.flatten, choice.Acceptable := by
  constructor
  · intro accepts
    obtain ⟨pieces, given, separator, wordsEq, allGive, boundary, makes⟩ :=
      accepts.divided nonempty
    exact ⟨pieces, given, separator, wordsEq, allGive, boundary, Options.makes_iff.mp makes⟩
  · rintro ⟨pieces, given, separator, rfl, allGive, boundary, said⟩
    rw [List.append_assoc]
    exact .of_allGive allGive (Options.makes_iff.mpr said) boundary.accepts

end Division

end CaseHarness.CommandLine
