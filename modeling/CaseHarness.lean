import CaseHarness.Main
import CaseHarness.Proofs.CommandLine.QuickLook
import CaseHarness.Proofs.Process.Delivery
import CaseHarness.Proofs.Process.Outcome
import CaseHarness.Proofs.Process.WholeLines
import CaseHarness.Proofs.Run.OneLanguage
import CaseHarness.Proofs.Verification.Verdict
import CaseHarness.Proofs.CommandLine.RoundTrip
import CaseHarness.Proofs.Run.Stages
import CaseHarness.Proofs.Run.LossyReading
import CaseHarness.Proofs.Text.ShellWords
import CaseHarness.Proofs.Run.ExitStatus
import CaseHarness.Proofs.Run.ShownCommand
import CaseHarness.Proofs.Json.Tokens
import CaseHarness.Proofs.Json.Reading
import CaseHarness.Proofs.Report
import CaseHarness.Proofs.CommandLine.Division
import CaseHarness.Proofs.Run.Course
import CaseHarness.Proofs.Run.PassThrough
import CaseHarness.Proofs.Run.FailedRuns
import CaseHarness.Proofs.Verification.Failures
import CaseHarness.Proofs.Run.OneStory
import CaseHarness.Proofs.Run.TimeLimit
import CaseHarness.Proofs.Verification.Diagnosis
import CaseHarness.Proofs.Verification.LineEnds
import CaseHarness.Proofs.Message
import CaseHarness.Proofs.Run.PrintedRows
import CaseHarness.Proofs.Run.ProgramPath
import CaseHarness.Proofs.Files.Canonical
import CaseHarness.Proofs.Run.CaseLocation
import CaseHarness.Proofs.Run.ChosenLanguage
import CaseHarness.Proofs.Run.Precedence
import CaseHarness.Proofs.Settings.Acceptance
