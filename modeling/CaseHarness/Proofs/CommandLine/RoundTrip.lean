import CaseHarness.CommandLine.Answer
import CaseHarness.Proofs.CommandLine.Division

/-!
# Options that are written and read back

Each choice can be spelled in several ways.  Choices in any order and spelling, behind them two
hyphens or nothing, and then the invocation are read as exactly these options and this
invocation.  The reader has met each choice at most once, so none is refused as a repetition;
and choices of different kinds do not disturb each other, so their order is lost.
-/

namespace CaseHarness.CommandLine

/-- The short name of an option that has one. -/
def ValueOption.short? : ValueOption → Option String
  | config => some "-c"
  | timeout => some "-t"
  | language | report => none

/-- The words that express a choice.  A value in a word of its own does not begin with a
hyphen. -/
inductive Choice.Spells : Choice → List String → Prop
  | joined {choice : Choice} {option : ValueOption} {value : String}
      (text : choice.HasText option value) : Spells choice ["--" ++ option.name ++ "=" ++ value]
  | apart {choice : Choice} {option : ValueOption} {value : String}
      (text : choice.HasText option value) (noHyphen : value.toList.head? ≠ some '-') :
      Spells choice ["--" ++ option.name, value]
  | short {choice : Choice} {option : ValueOption} {name value : String}
      (text : choice.HasText option value) (named : option.short? = some name)
      (noHyphen : value.toList.head? ≠ some '-') : Spells choice [name, value]
  | verboseName : Spells .verbose ["--verbose"]
  | verboseLetter : Spells .verbose ["-v"]

theorem Token.ofWord_eq_plain {word : String} (noHyphen : word.toList.head? ≠ some '-') :
    ofWord word = .plain := by
  by_contra notPlain
  exact noHyphen (head?_eq_hyphen notPlain)

section Accepted

variable {options : Options} {choices : List Choice} {pieces : List (List String)}
  {tail : List String} {arguments : Arguments}

theorem Choice.Spells.gives {choice : Choice} {words : List String}
    (spells : choice.Spells words) : Gives words [choice] := by
  cases spells with
  | joined text => exact .joined text
  | apart text noHyphen => exact .apart text (Token.ofWord_eq_plain noHyphen)
  | @short _ option name value text named noHyphen =>
      have plain := Token.ofWord_eq_plain noHyphen
      -- A short name is a cluster of one letter.
      cases option with
      | language | report => cases named
      | config =>
          cases named
          exact .clusterApart .hyphen rfl text plain
      | timeout =>
          cases named
          exact .clusterApart .hyphen rfl text plain
  | verboseName => exact .flagName
  | verboseLetter => exact .flagLetter

/-- The words of choices of different kinds in front of words that are accepted. -/
theorem Accepts.of_spelled (spelled : List.Forall₂ Choice.Spells choices pieces)
    (acceptable : ∀ choice ∈ choices, choice.Acceptable)
    (left : ∀ choice ∈ choices, options.Leaves choice.kind)
    (distinct : (choices.map Choice.kind).Nodup)
    (others : Accepts (choices.foldl Options.choose options) tail arguments) :
    Accepts options (pieces.flatten ++ tail) arguments := by
  have allGive : List.Forall₂ Gives pieces (choices.map fun choice => [choice]) := by
    rw [List.forall₂_map_right_iff]
    exact (spelled.imp fun choice words spells => spells.gives).flip
  have single : (choices.map fun choice => [choice]).flatten = choices := by
    rw [← List.flatMap_def]
    exact List.flatMap_singleton' choices
  have makes := Options.makes_foldl acceptable left distinct
  exact .of_allGive allGive (by rwa [single]) others

end Accepted

/-- Options that are written in any order and in any spelling, and an invocation behind them,
lead to a run with exactly these options and this invocation. -/
theorem answer_eq_run_of_spelled {options : Options} {choices : List Choice}
    {pieces : List (List String)} {separator others : List String} {program : String}
    (config : options.config ≠ some "") (report : options.report ≠ some "")
    (timeout : ∀ seconds, options.timeout = some seconds → seconds ≤ Text.Numeral.maxUInt64)
    (order : choices.Perm options.choices)
    (spelled : List.Forall₂ Choice.Spells choices pieces)
    (separated : separator = [] ∨ separator = ["--"])
    (noHyphen : program.toList.head? ≠ some '-') (more : others ≠ [])
    (environment : Environment) (name : String) :
    answer environment (name :: (pieces.flatten ++ separator ++ program :: others)) =
      .run ⟨options, program :: others⟩ := by
  have distinct : (choices.map Choice.kind).Nodup :=
    (order.map Choice.kind).nodup_iff.mpr options.nodup_kind_choices
  have acceptable : ∀ choice ∈ choices, choice.Acceptable := fun choice mem =>
    Options.acceptable_of_mem_choices config report timeout (order.mem_iff.mp mem)
  have left : ∀ choice ∈ choices, ({} : Options).Leaves choice.kind := by
    intro choice _
    cases choice <;> rfl
  have chosen : choices.foldl Options.choose {} = options := Options.foldl_choose_of_perm order
  have invoked : Accepts options (separator ++ program :: others) ⟨options, program :: others⟩ := by
    rcases separated with rfl | rfl
    · exact .positional (Token.ofWord_eq_plain noHyphen)
    · exact .separated (by decide)
  have accepted : Accepts {} (pieces.flatten ++ (separator ++ program :: others))
      ⟨options, program :: others⟩ :=
    .of_spelled spelled acceptable left distinct (by rwa [chosen])
  rw [answer_eq_run_iff, read_eq_ok_iff, List.tail_cons, List.append_assoc]
  refine ⟨accepted, ?_⟩
  have nonempty := List.length_pos_iff.mpr more
  simp only [List.length_cons]
  omega

/-- All options in another order, an empty language, a report that looks like an option, and
an invocation that is full of words like options. -/
theorem answer_to_shuffled_options :
    let words := ["tcf-runner", "-v", "--report=-r", "-t", "+05", "--lang=", "-c", "a=b", "--",
      "sh", "--", "--help", "--lang", "", "-v"]
    let options : Options := ⟨some "", some "a=b", some 5, some "-r", true⟩
    let choices : List Choice :=
      [.verbose, .report "-r", .timeout 5, .language "", .config "a=b"]
    choices.Perm options.choices ∧
      List.Forall₂ Choice.Spells choices
        [["-v"], ["--report=-r"], ["-t", "+05"], ["--lang="], ["-c", "a=b"]] ∧
      answer {} words = .run ⟨options, ["sh", "--", "--help", "--lang", "", "-v"]⟩ := by
  intro words options choices
  have order : choices.Perm options.choices := by decide
  have spelled : List.Forall₂ Choice.Spells choices
      [["-v"], ["--report=-r"], ["-t", "+05"], ["--lang="], ["-c", "a=b"]] := by
    refine .cons .verboseLetter (.cons ?_ (.cons ?_ (.cons ?_ (.cons ?_ .nil))))
    · exact .joined (.report "-r")
    · exact .short (.timeout ⟨['+'], 1, Or.inr rfl, by decide⟩) rfl (by decide)
    · exact .joined (.language "")
    · exact .short (.config "a=b") rfl (by decide)
  refine ⟨order, spelled, ?_⟩
  exact answer_eq_run_of_spelled (by decide) (by decide)
    (fun seconds given => by cases given; decide) order spelled (Or.inr rfl) (by decide)
    (by decide) {} "tcf-runner"

end CaseHarness.CommandLine
