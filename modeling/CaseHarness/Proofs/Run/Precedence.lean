import CaseHarness.Proofs.Run.OneLanguage
import Mathlib.Data.List.Basic
import Mathlib.Data.List.Induction

/-!
# Which setting counts

Settings are overridden field by field: of all values that are given for a field one after
another the last one counts, whatever is given for the other fields.  The command line is the
last to give settings, so an option comes before the settings file, and what neither gives is
left open or chosen by the environment.
-/

namespace CaseHarness

/-- What counts of values given one after another: the last one, or an initial value if none is
given. -/
inductive LastGiven {α : Type} (initial : Option α) : List (Option α) → Option α → Prop
  | initial {given : List (Option α)} (silent : ∀ value ∈ given, value = none) :
      LastGiven initial given initial
  | given {before after : List (Option α)} {value : α} (silent : ∀ later ∈ after, later = none) :
      LastGiven initial (before ++ some value :: after) (some value)

namespace LastGiven

variable {α : Type} {initial counting : Option α} {given : List (Option α)}

/-- One more value counts if it is given, and else changes nothing. -/
theorem concat (counts : LastGiven initial given counting) (later : Option α) :
    LastGiven initial (given ++ [later]) (later.or counting) := by
  cases later with
  | some value => exact .given (List.forall_mem_nil _)
  | none =>
      rw [Option.none_or]
      cases counts with
      | initial silent =>
          exact .initial (List.forall_mem_append.mpr ⟨silent, List.forall_mem_singleton.mpr rfl⟩)
      | given silent =>
          rw [List.append_assoc, List.cons_append]
          exact .given (List.forall_mem_append.mpr ⟨silent, List.forall_mem_singleton.mpr rfl⟩)

end LastGiven

namespace Settings

variable {α : Type} {field : Settings → Option α}

/-- A field that is overridden on its own takes the last value given for it. -/
theorem lastGiven_foldl_override
    (overridden : ∀ settings later,
      field (override settings later) = (field later).or (field settings))
    (initial : Settings) (overrides : List Settings) :
    LastGiven (field initial) (overrides.map field) (field (overrides.foldl override initial)) := by
  induction overrides using List.reverseRecOn with
  | nil => exact .initial (List.forall_mem_nil _)
  | append_singleton overrides later ih =>
      rw [List.map_append, List.foldl_append]
      have counts := ih.concat (field later)
      rwa [← overridden] at counts

end Settings

namespace Harness

/-- In any sequence of overrides the last value given for a field counts, or the initial one,
whatever is given for other fields.  A command line that asks for a run carries out the plan
whose fields are given by its options, else by the settings file; the last word of its
invocation is the test case and the others are the command. -/
theorem last_setting_counts :
    (∀ (initial : Settings) (overrides : List Settings),
      let final := overrides.foldl Settings.override initial
      LastGiven initial.language (overrides.map Settings.language) final.language ∧
        LastGiven initial.timeoutSeconds (overrides.map Settings.timeoutSeconds)
          final.timeoutSeconds ∧
        LastGiven initial.report (overrides.map Settings.report) final.report) ∧
    ∀ launch environment words arguments (session : Session) settings,
      CommandLine.answer environment words = .run arguments →
      Settings.loadOptional session.files session.directory arguments.options.config =
        .ok settings →
      let options := arguments.options
      let tag := ((options.language.or settings.language).map Language.resolve).getD
        environment.detect
      ∃ command testCase, arguments.invocation = command ++ [testCase] ∧
        run launch environment words session =
          ended (Plan.execute
            { command := command
              testCase := testCase
              limit := (options.timeout.or settings.timeoutSeconds).map fun seconds => ⟨seconds, 0⟩
              report := options.report.or settings.report
              verbose := options.verbose
              tag := tag }
            launch { session with tag := tag }) := by
  constructor
  · intro initial overrides final
    exact ⟨Settings.lastGiven_foldl_override (fun _ _ => rfl) initial overrides,
      Settings.lastGiven_foldl_override (fun _ _ => rfl) initial overrides,
      Settings.lastGiven_foldl_override (fun _ _ => rfl) initial overrides⟩
  · intro launch environment words arguments session settings asked loads options tag
    have invoked := CommandLine.invocation_ne_nil asked
    have tagEq : runTag environment options (.ok settings) = tag := by
      simp only [runTag, Except.toOption, Option.bind_some, tag]
      cases options.language.or settings.language <;> rfl
    have planEq : planOf arguments (settings.override (settingsOf options)) tag =
        { command := arguments.invocation.dropLast
          testCase := arguments.invocation.getLast invoked
          limit := (options.timeout.or settings.timeoutSeconds).map fun seconds => ⟨seconds, 0⟩
          report := options.report.or settings.report
          verbose := options.verbose
          tag := tag } := by
      simp only [planOf, List.getLast?_eq_getLast_of_ne_nil invoked, Option.getD_some]
      rfl
    refine ⟨_, _, (List.dropLast_append_getLast invoked).symm, ?_⟩
    rw [run, asked]
    dsimp only
    rw [runArguments_of_loaded session launch invoked loads, tagEq]
    dsimp only
    rw [planEq]

/-- The file gives all three settings, of which the command line overrides two. -/
theorem timeout_of_file_counts :
    let words := ["tcf-runner", "--report", "b.json", "-c", "s.toml", "--lang=fr", "p", "t.tcf"]
    let options : CommandLine.Options :=
      { language := some "fr", config := some "s.toml", report := some "b.json" }
    let content := "report = 'a.json'\ntimeout_secs = 3\nlanguage = 'zh'\n"
    let session : Session :=
      { files := ⟨[(["s.toml"], .file (Text.Utf8.encode content) false)]⟩, directory := [] }
    CommandLine.answer {} words = .run ⟨options, ["p", "t.tcf"]⟩ ∧
      Settings.loadOptional session.files session.directory options.config =
        .ok ⟨some "zh", some 3, some "a.json"⟩ ∧
      ∀ launch, run launch {} words session =
        ended (Plan.execute
          { command := ["p"]
            testCase := "t.tcf"
            limit := some ⟨3, 0⟩
            report := some "b.json"
            tag := "en" }
          launch { session with tag := "en" }) := by
  intro words options content session
  have asked : CommandLine.answer {} words = .run ⟨options, ["p", "t.tcf"]⟩ := by decide
  have loads : Settings.loadOptional session.files session.directory options.config =
      .ok ⟨some "zh", some 3, some "a.json"⟩ := by decide +kernel
  refine ⟨asked, loads, fun launch => ?_⟩
  obtain ⟨command, testCase, invoked, runs⟩ :=
    last_setting_counts.2 launch {} words ⟨options, ["p", "t.tcf"]⟩ session _ asked loads
  have split : ["p"] ++ ["t.tcf"] = command ++ [testCase] := invoked
  obtain ⟨rfl, last⟩ := List.append_inj' split rfl
  cases last
  exact runs

end Harness

end CaseHarness
