/-!
# Settings

The three settings of the harness that a file or the command line may give.  A
later source overrides an earlier one field by field.
-/

namespace CaseHarness

/-- The settings that have been given. -/
structure Settings where
  /-- The language of messages. -/
  language : Option String := none
  /-- After how many seconds the program is killed. -/
  timeoutSeconds : Option Nat := none
  /-- Where the report is written. -/
  report : Option String := none
  deriving DecidableEq, Repr

/-- Override each field that the later settings give. -/
def Settings.override (settings later : Settings) : Settings where
  language := later.language.or settings.language
  timeoutSeconds := later.timeoutSeconds.or settings.timeoutSeconds
  report := later.report.or settings.report

@[simp]
theorem Settings.override_empty (settings : Settings) : settings.override {} = settings := by
  cases settings
  rfl

@[simp]
theorem Settings.empty_override (settings : Settings) :
    Settings.override {} settings = settings := by
  rcases settings with ⟨language, timeoutSeconds, report⟩
  cases language <;> cases timeoutSeconds <;> cases report <;> rfl

theorem Settings.override_assoc (first second third : Settings) :
    (first.override second).override third = first.override (second.override third) := by
  simp [Settings.override, Option.or_assoc]

end CaseHarness
