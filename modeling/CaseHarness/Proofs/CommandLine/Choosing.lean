import CaseHarness.CommandLine.Arguments
import CaseHarness.Proofs.Text.Numeral
import Mathlib.Data.List.Nodup
import Mathlib.Data.List.Perm.Basic

/-!
# Options as choices

Options are a set of choices, at most one of each kind.  What a reader does with its options is
to make choices one after the other: each option that is given a value and each flag that is
raised is one, and it is refused if something was said about its kind before.  Whoever makes
choices in turn, from nothing, arrives at the options that say just these, in whatever order.
-/

namespace CaseHarness.CommandLine

/-- One thing that options can say. -/
inductive Choice where
  | language (requested : String)
  | config (path : String)
  | timeout (seconds : Nat)
  | report (path : String)
  | verbose
  deriving DecidableEq

/-- What a choice is about; none stands for the flag. -/
def Choice.kind : Choice → Option ValueOption
  | language _ => some .language
  | config _ => some .config
  | timeout _ => some .timeout
  | report _ => some .report
  | verbose => none

/-- All that options say. -/
def Options.choices (options : Options) : List Choice :=
  (options.language.map .language).toList ++ (options.config.map .config).toList ++
    (options.timeout.map .timeout).toList ++ (options.report.map .report).toList ++
    if options.verbose then [.verbose] else []

def Options.choose (options : Options) : Choice → Options
  | .language requested => { options with language := some requested }
  | .config path => { options with config := some path }
  | .timeout seconds => { options with timeout := some seconds }
  | .report path => { options with report := some path }
  | .verbose => { options with verbose := true }

/-- The option says nothing about a kind. -/
def Options.Leaves (options : Options) : Option ValueOption → Prop
  | some .language => options.language = none
  | some .config => options.config = none
  | some .timeout => options.timeout = none
  | some .report => options.report = none
  | none => options.verbose = false

/-- The value of a choice can be given to an option as this text. -/
inductive Choice.HasText : Choice → ValueOption → String → Prop
  | language (requested : String) : HasText (.language requested) .language requested
  | config (path : String) : HasText (.config path) .config path
  | timeout {seconds : Nat} {text : String} (writes : Text.Numeral.Writes text.toList seconds) :
      HasText (.timeout seconds) .timeout text
  | report (path : String) : HasText (.report path) .report path

/-- The choice is one that options accept: a path is not empty, and a number of seconds has at
most 64 bits. -/
def Choice.Acceptable : Choice → Prop
  | config path | report path => path ≠ ""
  | timeout seconds => seconds ≤ Text.Numeral.maxUInt64
  | language _ | verbose => True

section Options

variable {options : Options} {choice other : Choice} {option : ValueOption} {value : String}

/-- A second choice of another kind finds what it would find without the first. -/
theorem Options.leaves_choose_iff (options : Options) {kind : Option ValueOption}
    (differs : choice.kind ≠ kind) : (options.choose choice).Leaves kind ↔ options.Leaves kind := by
  rcases kind with _ | _ | _ | _ | _ <;> cases choice <;>
    simp_all [Choice.kind, Leaves, choose]

theorem Options.choose_comm (options : Options) (differs : choice.kind ≠ other.kind) :
    (options.choose choice).choose other = (options.choose other).choose choice := by
  cases choice <;> cases other <;> simp_all [Choice.kind, choose]

theorem Options.nodup_kind_choices (options : Options) :
    (options.choices.map Choice.kind).Nodup := by
  rcases options with ⟨_ | language, _ | config, _ | timeout, _ | report, _ | _⟩ <;>
    simp [choices, Choice.kind]

theorem Options.foldl_choose_choices (options : Options) :
    options.choices.foldl choose {} = options := by
  rcases options with ⟨_ | language, _ | config, _ | timeout, _ | report, _ | _⟩ <;> rfl

/-- The order of the choices does not matter. -/
theorem Options.foldl_choose_of_perm {choices : List Choice}
    (order : choices.Perm options.choices) : choices.foldl choose {} = options := by
  have distinct : (choices.map Choice.kind).Nodup :=
    (order.map Choice.kind).nodup_iff.mpr options.nodup_kind_choices
  have commutes : ∀ first ∈ choices, ∀ second ∈ choices, ∀ base : Options,
      (base.choose first).choose second = (base.choose second).choose first := by
    intro first firstMem second secondMem base
    by_cases sameKind : first.kind = second.kind
    · rw [List.inj_on_of_nodup_map distinct firstMem secondMem sameKind]
    · exact base.choose_comm sameKind
  exact (order.foldl_eq' commutes {}).trans options.foldl_choose_choices

theorem Options.acceptable_of_mem_choices (config : options.config ≠ some "")
    (report : options.report ≠ some "")
    (timeout : ∀ seconds, options.timeout = some seconds → seconds ≤ Text.Numeral.maxUInt64)
    (mem : choice ∈ options.choices) : choice.Acceptable := by
  simp only [choices, List.mem_append, Option.mem_toList, Option.map_eq_some_iff] at mem
  rcases mem with (((⟨requested, -, rfl⟩ | ⟨path, given, rfl⟩) | ⟨seconds, given, rfl⟩) |
    ⟨path, given, rfl⟩) | flagged
  · trivial
  · rintro rfl
    exact config given
  · exact timeout seconds given
  · rintro rfl
    exact report given
  · split at flagged
    · rw [List.mem_singleton.mp flagged]
      trivial
    · cases flagged

/-- An option takes a text of an acceptable choice as its first value. -/
theorem Options.assign_of_hasText (text : choice.HasText option value)
    (acceptable : choice.Acceptable) (left : options.Leaves choice.kind) :
    options.assign option value = .ok (options.choose choice) := by
  cases text with
  | language =>
      have unset : options.language = none := left
      simp [assign, choose, unset]
  | config =>
      have unset : options.config = none := left
      have nonempty : value ≠ "" := acceptable
      simp [assign, choose, unset, nonempty]
  | @timeout seconds _ writes =>
      have unset : options.timeout = none := left
      have reads := Text.Numeral.bounded_of_writes writes acceptable
      simp [assign, choose, unset, reads]
  | report =>
      have unset : options.report = none := left
      have nonempty : value ≠ "" := acceptable
      simp [assign, choose, unset, nonempty]

end Options

/-- Choices are made in turn, each an acceptable one of a kind about which nothing was said. -/
inductive Options.Makes : Options → List Choice → Options → Prop
  | nothing {options : Options} : Makes options [] options
  | choice {options result : Options} {choice : Choice} {choices : List Choice}
      (left : options.Leaves choice.kind) (acceptable : choice.Acceptable)
      (others : Makes (options.choose choice) choices result) :
      Makes options (choice :: choices) result

namespace Options

variable {options middle result raised assigned : Options} {choices others : List Choice}
  {choice : Choice} {option : ValueOption} {value : String}

theorem Makes.append (first : options.Makes choices middle) (second : middle.Makes others result) :
    options.Makes (choices ++ others) result := by
  induction first with
  | nothing => exact second
  | choice left acceptable _ ih => exact .choice left acceptable (ih second)

theorem makes_append_iff :
    options.Makes (choices ++ others) result ↔
      ∃ middle, options.Makes choices middle ∧ middle.Makes others result := by
  constructor
  · intro makes
    induction choices generalizing options with
    | nil => exact ⟨options, .nothing, makes⟩
    | cons choice choices ih =>
        cases makes with
        | choice left acceptable rest =>
            obtain ⟨middle, first, second⟩ := ih rest
            exact ⟨middle, .choice left acceptable first, second⟩
  · rintro ⟨middle, first, second⟩
    exact first.append second

theorem makes_singleton_iff :
    options.Makes [choice] result ↔
      options.Leaves choice.kind ∧ choice.Acceptable ∧ result = options.choose choice := by
  constructor
  · rintro (_ | ⟨left, acceptable, _ | _⟩)
    exact ⟨left, acceptable, rfl⟩
  · rintro ⟨left, acceptable, rfl⟩
    exact .choice left acceptable .nothing

theorem mem_choices_choose_iff (left : options.Leaves choice.kind) (other : Choice) :
    other ∈ (options.choose choice).choices ↔ other = choice ∨ other ∈ options.choices := by
  rcases options with ⟨language, config, timeout, report, verbose⟩
  cases choice
  all_goals
    cases left
    simp only [choices, choose, Option.map_some, Option.toList_some, Option.map_none,
      Option.toList_none, List.mem_append, List.mem_cons, List.not_mem_nil, or_false, false_or,
      if_true, Bool.false_eq_true, if_false]
    tauto

theorem notMem_choices (left : options.Leaves choice.kind) : choice ∉ options.choices := by
  rcases options with ⟨language, config, timeout, report, verbose⟩
  cases choice
  all_goals
    cases left
    simp [choices]

/-- What is said after a choice is what was said before, and the choice. -/
theorem choices_choose_perm (left : options.Leaves choice.kind) :
    (options.choose choice).choices.Perm (choice :: options.choices) := by
  have before := options.nodup_kind_choices.of_map
  have after := (options.choose choice).nodup_kind_choices.of_map
  rw [List.perm_ext_iff_of_nodup after (before.cons (notMem_choices left))]
  intro other
  rw [mem_choices_choose_iff left, List.mem_cons]

theorem Makes.choices_perm (makes : options.Makes choices result) :
    result.choices.Perm (choices ++ options.choices) := by
  induction makes with
  | nothing => exact List.Perm.refl _
  | choice left acceptable _ ih =>
      exact ih.trans (((choices_choose_perm left).append_left _).trans List.perm_middle)

theorem Makes.acceptable (makes : options.Makes choices result) :
    ∀ choice ∈ choices, choice.Acceptable := by
  induction makes with
  | nothing => simp
  | choice left acceptable _ ih => exact List.forall_mem_cons.mpr ⟨acceptable, ih⟩

/-- Choices of different kinds, about which nothing was said, can be made in turn. -/
theorem makes_foldl (acceptable : ∀ choice ∈ choices, choice.Acceptable)
    (left : ∀ choice ∈ choices, options.Leaves choice.kind)
    (distinct : (choices.map Choice.kind).Nodup) :
    options.Makes choices (choices.foldl choose options) := by
  induction choices generalizing options with
  | nil => exact .nothing
  | cons choice choices ih =>
      simp only [List.map_cons, List.nodup_cons, List.mem_map, not_exists, not_and] at distinct
      obtain ⟨fresh, distinctOthers⟩ := distinct
      obtain ⟨acceptableFirst, acceptableOthers⟩ := List.forall_mem_cons.mp acceptable
      refine .choice (left choice List.mem_cons_self) acceptableFirst
        (ih acceptableOthers ?_ distinctOthers)
      intro other mem
      rw [options.leaves_choose_iff fun sameKind => fresh other mem sameKind.symm]
      exact left other (List.mem_cons_of_mem _ mem)

/-- From nothing, choices lead to the options that say just these. -/
theorem makes_iff :
    Makes {} choices options ↔
      choices.Perm options.choices ∧ ∀ choice ∈ choices, choice.Acceptable := by
  constructor
  · intro makes
    have order := makes.choices_perm
    rw [show ({} : Options).choices = [] from rfl, List.append_nil] at order
    exact ⟨order.symm, makes.acceptable⟩
  · rintro ⟨order, acceptable⟩
    have distinct : (choices.map Choice.kind).Nodup :=
      (order.map Choice.kind).nodup_iff.mpr options.nodup_kind_choices
    have left : ∀ choice ∈ choices, ({} : Options).Leaves choice.kind := by
      intro choice _
      cases choice <;> rfl
    have makes := makes_foldl acceptable left distinct
    rwa [foldl_choose_of_perm order] at makes

/-- An option takes a value exactly if this makes an acceptable choice that is still open. -/
theorem assign_eq_ok_iff :
    options.assign option value = .ok assigned ↔
      ∃ choice, choice.HasText option value ∧ options.Makes [choice] assigned := by
  constructor
  · intro assigns
    simp only [makes_singleton_iff]
    cases option with
    | language =>
        simp only [assign] at assigns
        split at assigns
        · cases assigns
        · next unset =>
          cases assigns
          have left : options.language = none := by simpa using unset
          exact ⟨.language value, .language value, left, trivial, rfl⟩
    | config =>
        simp only [assign] at assigns
        split at assigns
        · cases assigns
        · next unset =>
          split at assigns
          · cases assigns
          · next nonempty =>
            cases assigns
            have left : options.config = none := by simpa using unset
            have acceptable : value ≠ "" := by simpa using nonempty
            exact ⟨.config value, .config value, left, acceptable, rfl⟩
    | timeout =>
        simp only [assign] at assigns
        split at assigns
        · cases assigns
        · next unset =>
          split at assigns
          · next seconds reads =>
            cases assigns
            obtain ⟨writes, fits⟩ := Text.Numeral.bounded_eq_ok_iff.mp reads
            have left : options.timeout = none := by simpa using unset
            exact ⟨.timeout seconds, .timeout writes, left, fits, rfl⟩
          · cases assigns
    | report =>
        simp only [assign] at assigns
        split at assigns
        · cases assigns
        · next unset =>
          split at assigns
          · cases assigns
          · next nonempty =>
            cases assigns
            have left : options.report = none := by simpa using unset
            have acceptable : value ≠ "" := by simpa using nonempty
            exact ⟨.report value, .report value, left, acceptable, rfl⟩
  · rintro ⟨choice, text, makes⟩
    obtain ⟨left, acceptable, rfl⟩ := makes_singleton_iff.mp makes
    exact assign_of_hasText text acceptable left

theorem raise_eq_ok_iff {flag : Flag} :
    options.raise flag = .ok raised ↔ flag = .verbose ∧ options.Makes [.verbose] raised := by
  have openIff : options.Makes [.verbose] raised ↔
      options.verbose = false ∧ raised = { options with verbose := true } := by
    rw [makes_singleton_iff]
    simp [Choice.Acceptable, Leaves, Choice.kind, choose]
  rw [openIff]
  cases flag with
  | verbose =>
      cases unset : options.verbose <;> simp [raise, unset, eq_comm]
  | help | version => simp [raise]

/-- A flag can be raised once. -/
theorem raiseAll_eq_ok_iff {flags : List Flag} :
    options.raiseAll flags = .ok raised ↔
      (flags = [] ∧ raised = options) ∨
        (flags = [.verbose] ∧ options.Makes [.verbose] raised) := by
  constructor
  · intro raises
    cases flags with
    | nil =>
        cases raises
        exact Or.inl ⟨rfl, rfl⟩
    | cons flag flags =>
        unfold raiseAll at raises
        split at raises
        · next first raisesFirst =>
          obtain ⟨rfl, makes⟩ := raise_eq_ok_iff.mp raisesFirst
          cases flags with
          | nil =>
              cases raises
              exact Or.inr ⟨rfl, makes⟩
          | cons second flags =>
              unfold raiseAll at raises
              split at raises
              · next raisesSecond =>
                -- The first flag is raised, so the second one cannot be the same.
                obtain ⟨-, makesSecond⟩ := raise_eq_ok_iff.mp raisesSecond
                obtain ⟨-, -, rfl⟩ := makes_singleton_iff.mp makes
                obtain ⟨left, -, -⟩ := makes_singleton_iff.mp makesSecond
                cases left
              · cases raises
        · cases raises
  · rintro (⟨rfl, rfl⟩ | ⟨rfl, makes⟩)
    · rfl
    · simp [raiseAll, raise_eq_ok_iff.mpr ⟨rfl, makes⟩]

end Options

end CaseHarness.CommandLine
