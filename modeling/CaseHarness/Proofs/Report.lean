import CaseHarness.Proofs.Json.Reading
import CaseHarness.Report

/-!
# Reports are read back

A report is decoded from the JSON value that is read from its text: every field by its name,
every alternative by its `kind`.  The decoders take any JSON value, so what they give for the
text of a report shows that nothing of the report is lost in the text.
-/

namespace CaseHarness

namespace Json

variable {α : Type}

def field? (value : Json) (name : String) : Option Json :=
  match value with
  | object fields => fields.lookup name
  | _ => none

/-- Decode the field of an object. -/
def at? (value : Json) (name : String) (decode : Json → Option α) : Option α :=
  (value.field? name).bind decode

def bool? : Json → Option Bool
  | bool value => some value
  | _ => none

def int? : Json → Option Int
  | number value => some value
  | _ => none

def nat? : Json → Option Nat
  | number value => value.toNat?
  | _ => none

def text? : Json → Option String
  | text value => some value
  | _ => none

def listOf? (decode : Json → Option α) : Json → Option (List α)
  | list items => items.mapM decode
  | _ => none

def nullOr? (decode : Json → Option α) : Json → Option (Option α)
  | null => some none
  | value => (decode value).map some

theorem listOf?_map {encode : α → Json} {decode : Json → Option α}
    (inverse : ∀ item, decode (encode item) = some item) (items : List α) :
    listOf? decode (.list (items.map encode)) = some items := by
  rw [listOf?]
  induction items with
  | nil => rfl
  | cons item items ih => simp [inverse item, ih]

end Json

open Json (text? int? nat? bool? listOf? nullOr?)

def Termination.ofJson? (value : Json) : Option Termination :=
  match value.at? "kind" text? with
  | some "exited" => (value.at? "code" int?).map exited
  | some "signaled" => (value.at? "signal" int?).map signaled
  | some "timed_out" => (value.at? "after_ms" nat?).map timedOut
  | _ => none

theorem Termination.ofJson?_json (termination : Termination) :
    ofJson? termination.json = some termination := by
  cases termination with
  | exited code => rfl
  | signaled signal => rfl
  | timedOut milliseconds => rfl

def Failure.ofJson? (value : Json) : Option Failure :=
  match value.at? "kind" text? with
  | some "check_not_found" => do
      return .checkNotFound (← value.at? "line" nat?) (← value.at? "pattern" text?)
  | some "non_zero_exit" => (value.at? "actual" int?).map nonZeroExit
  | some "exit_code_mismatch" => do
      return .exitCodeMismatch (← value.at? "actual" int?) (← value.at? "expected" int?)
  | some "unexpected_success" => some unexpectedSuccess
  | some "timed_out" => (value.at? "after_ms" nat?).map timedOut
  | _ => none

theorem Failure.ofJson?_json (failure : Failure) : ofJson? failure.json = some failure := by
  cases failure with
  | checkNotFound line pattern => rfl
  | nonZeroExit actual => rfl
  | exitCodeMismatch actual expected => rfl
  | unexpectedSuccess => rfl
  | timedOut milliseconds => rfl

def Check.ofJson? (value : Json) : Option Check := do
  return ⟨← value.at? "line" nat?, ← value.at? "pattern" text?⟩

theorem Check.ofJson?_json (check : Check) : ofJson? check.json = some check :=
  rfl

def Expectations.ofJson? (value : Json) : Option Expectations := do
  return {
    checks := ← value.at? "checks" (listOf? Check.ofJson?)
    exitCode := ← value.at? "exit_code" int?
    abort := ← value.at? "expect_abort" bool? }

theorem Expectations.ofJson?_json (expectations : Expectations) :
    ofJson? expectations.json = some expectations := by
  have checks : expectations.json.at? "checks" (listOf? Check.ofJson?) =
      some expectations.checks := Json.listOf?_map Check.ofJson?_json expectations.checks
  have exitCode : expectations.json.at? "exit_code" int? = some expectations.exitCode := rfl
  have abort : expectations.json.at? "expect_abort" bool? = some expectations.abort := rfl
  rw [ofJson?, checks, exitCode, abort]
  rfl

namespace Report

/-- The names of the fields of a report. -/
def fieldNames : List String :=
  ["test_case", "command", "passed", "expectations", "termination", "exit_code", "duration_ms",
    "failures"]

def ofJson? (value : Json) : Option Report := do
  return {
    testCase := ← value.at? "test_case" text?
    command := ← value.at? "command" (listOf? text?)
    passed := ← value.at? "passed" bool?
    expectations := ← value.at? "expectations" Expectations.ofJson?
    termination := ← value.at? "termination" Termination.ofJson?
    exitCode := ← value.at? "exit_code" (nullOr? int?)
    durationMilliseconds := ← value.at? "duration_ms" nat?
    failures := ← value.at? "failures" (listOf? Failure.ofJson?) }

theorem ofJson?_json (report : Report) : ofJson? report.json = some report := by
  have testCase : report.json.at? "test_case" text? = some report.testCase := rfl
  have words : ∀ word, text? (.text word) = some word := fun _ => rfl
  have command : report.json.at? "command" (listOf? text?) = some report.command :=
    Json.listOf?_map words report.command
  have passed : report.json.at? "passed" bool? = some report.passed := rfl
  have expectations : report.json.at? "expectations" Expectations.ofJson? =
      some report.expectations := Expectations.ofJson?_json report.expectations
  have termination : report.json.at? "termination" Termination.ofJson? =
      some report.termination := Termination.ofJson?_json report.termination
  have exitCode : report.json.at? "exit_code" (nullOr? int?) = some report.exitCode := by
    obtain ⟨_, _, _, _, _, exitCode, _, _⟩ := report
    cases exitCode with
    | none => rfl
    | some code => rfl
  have duration : report.json.at? "duration_ms" nat? = some report.durationMilliseconds := rfl
  have failures : report.json.at? "failures" (listOf? Failure.ofJson?) = some report.failures :=
    Json.listOf?_map Failure.ofJson?_json report.failures
  rw [ofJson?, testCase, command, passed, expectations, termination, exitCode, duration, failures]
  rfl

theorem decode_text (report : Report) : (Json.read? report.text).bind ofJson? = some report := by
  rw [text, Json.read?_pretty, Option.bind_some, ofJson?_json]

theorem text_injective {first second : Report} (same : first.text = second.text) :
    first = second := by
  have decoded := decode_text first
  rw [same, decode_text, Option.some.injEq] at decoded
  exact decoded.symm

theorem exitCode_eq_none_iff {case : TestCase} {command : List String}
    {expectations : Expectations} {execution : Execution} {outcome : Outcome} :
    (ofRun case command expectations execution outcome).exitCode = none ↔
      execution.termination.isTimeout = true := by
  rw [ofRun]
  cases execution.termination <;> simp [Termination.effectiveCode?, Termination.isTimeout]

theorem field?_exit_code_eq_null_iff (report : Report) :
    report.json.field? "exit_code" = some .null ↔ report.exitCode = none := by
  obtain ⟨_, _, _, _, _, exitCode, _, _⟩ := report
  cases exitCode with
  | none => exact iff_of_true rfl rfl
  | some code =>
      refine iff_of_false ?_ (by simp)
      intro null
      cases null

/-- The text of a report is one JSON document: an object with just the fields of a report, from
which the report is decoded.  It has no exit code exactly if the time was over, and it is the
text of no other report. -/
theorem text_decodes (case : TestCase) (command : List String) (expectations : Expectations)
    (execution : Execution) (outcome : Outcome) :
    let report := ofRun case command expectations execution outcome
    ∃ fields, Json.read? report.text = some (.object fields) ∧
      fields.map Prod.fst = fieldNames ∧
      ofJson? (.object fields) = some report ∧
      ((Json.object fields).field? "exit_code" = some .null ↔
        execution.termination.isTimeout = true) ∧
      ∀ other : Report, other.text = report.text → other = report := by
  intro report
  obtain ⟨fields, jsonEq, names⟩ :
      ∃ fields, report.json = .object fields ∧ fields.map Prod.fst = fieldNames := ⟨_, rfl, rfl⟩
  refine ⟨fields, ?_, names, ?_, ?_, fun _ same => text_injective same⟩
  · rw [text, Json.read?_pretty, jsonEq]
  · rw [← jsonEq, ofJson?_json]
  · rw [← jsonEq, field?_exit_code_eq_null_iff, exitCode_eq_none_iff]

end Report

end CaseHarness
