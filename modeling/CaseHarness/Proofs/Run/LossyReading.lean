import CaseHarness.Proofs.Run.Stages
import CaseHarness.Proofs.Text.Pieces

/-!
# Files and outputs of any bytes

A test case and a captured output may hold bytes that are no text.  They are divided into lines
at their newline bytes, and each line is read on its own, so what is no text in one line has no
part in another.  Whether a line is a directive is decided by the bytes that it begins with, and
the number of its line is its place among the lines of bytes.
-/

namespace CaseHarness

open Text (byteLines TrimsTo)
open Text.Utf8 (decode encode decode_encode decode_encode_append decode_eq_append_iff)

namespace Directive

/-- What a line of bytes states, by the bytes that it begins with. -/
inductive ReadsBytes : List UInt8 → Except InvalidExitCode (Option Directive) → Prop
  | check (rest : List UInt8) :
      ReadsBytes (encode "# CHECK: " ++ rest) (.ok (some (.check (decode rest))))
  | exit (rest : List UInt8) :
      ReadsBytes (encode "# EXIT " ++ rest) ((ofExitValue (decode rest).toList).map some)
  | abort (rest : List UInt8) : ReadsBytes (encode "# ABORT" ++ rest) (.ok (some .abort))
  | nothing {line : List UInt8} (noCheck : ¬ encode "# CHECK: " <+: line)
      (noExit : ¬ encode "# EXIT " <+: line) (noAbort : ¬ encode "# ABORT" <+: line) :
      ReadsBytes line (.ok none)

variable {line : List UInt8} {result : Except InvalidExitCode (Option Directive)}

theorem ofLine_check (pattern : String) :
    ofLine ("# CHECK: " ++ pattern) = .ok (some (.check pattern)) := by
  have opened : Text.after? checkOpening ("# CHECK: " ++ pattern).toList = some pattern.toList :=
    after?_toList_append "# CHECK: " pattern
  simp only [ofLine, opened, String.ofList_toList]

theorem ofLine_abort (rest : String) : ofLine ("# ABORT" ++ rest) = .ok (some .abort) := by
  have opened : Text.after? abortOpening ("# ABORT" ++ rest).toList = some rest.toList :=
    after?_toList_append "# ABORT" rest
  have noCheck := Text.after?_eq_none_of_apart
    (show ¬ checkOpening <+: abortOpening ∧ ¬ abortOpening <+: checkOpening by decide) opened
  have noExit := Text.after?_eq_none_of_apart
    (show ¬ exitOpening <+: abortOpening ∧ ¬ abortOpening <+: exitOpening by decide) opened
  simp only [ofLine, noCheck, noExit, opened, Option.isSome_some, if_true]

theorem decode_eq_check_iff {pattern : String} :
    decode line = "# CHECK: " ++ pattern ↔
      ∃ rest, line = encode "# CHECK: " ++ rest ∧ pattern = decode rest :=
  decode_eq_append_iff (by decide)

theorem decode_eq_exit_iff {value : String} :
    decode line = "# EXIT " ++ value ↔
      ∃ rest, line = encode "# EXIT " ++ rest ∧ value = decode rest :=
  decode_eq_append_iff (by decide)

theorem decode_eq_abort_iff {rest : String} :
    decode line = "# ABORT" ++ rest ↔
      ∃ others, line = encode "# ABORT" ++ others ∧ rest = decode others :=
  decode_eq_append_iff (by decide)

theorem inert_decode (noCheck : ¬ encode "# CHECK: " <+: line)
    (noExit : ¬ encode "# EXIT " <+: line) (noAbort : ¬ encode "# ABORT" <+: line) :
    Inert (decode line) where
  noCheck := by
    intro pattern opened
    obtain ⟨rest, lineEq, -⟩ := decode_eq_check_iff.mp opened
    exact noCheck ⟨rest, lineEq.symm⟩
  noExit := by
    intro value opened
    obtain ⟨rest, lineEq, -⟩ := decode_eq_exit_iff.mp opened
    exact noExit ⟨rest, lineEq.symm⟩
  noAbort := by
    intro others opened
    obtain ⟨rest, lineEq, -⟩ := decode_eq_abort_iff.mp opened
    exact noAbort ⟨rest, lineEq.symm⟩

theorem ofLine_decode_of_readsBytes (reads : ReadsBytes line result) :
    ofLine (decode line) = result := by
  cases reads with
  | check rest => rw [decode_encode_append, ofLine_check]
  | exit rest => rw [decode_encode_append, ofLine_exit]
  | abort rest => rw [decode_encode_append, ofLine_abort]
  | nothing noCheck noExit noAbort => exact ofLine_inert (inert_decode noCheck noExit noAbort)

theorem exists_readsBytes (line : List UInt8) : ∃ result, ReadsBytes line result := by
  by_cases check : encode "# CHECK: " <+: line
  · obtain ⟨rest, rfl⟩ := check
    exact ⟨_, .check rest⟩
  by_cases exit : encode "# EXIT " <+: line
  · obtain ⟨rest, rfl⟩ := exit
    exact ⟨_, .exit rest⟩
  by_cases abort : encode "# ABORT" <+: line
  · obtain ⟨rest, rfl⟩ := abort
    exact ⟨_, .abort rest⟩
  exact ⟨_, .nothing check exit abort⟩

theorem ofLine_decode_eq_iff : ofLine (decode line) = result ↔ ReadsBytes line result := by
  constructor
  · rintro rfl
    obtain ⟨other, reads⟩ := exists_readsBytes line
    rwa [ofLine_decode_of_readsBytes reads]
  · exact ofLine_decode_of_readsBytes

end Directive

/-- The lines of a test case are those of a file with this content, and the numbers of its
directives count the lines of bytes. -/
structure TestCase.ReadFrom (case : TestCase) (content : List UInt8) : Prop where
  lines : case.lines = (byteLines content).map decode
  checks : ∀ expectations, Expectations.ofCase case = .ok expectations → ∀ check,
    check ∈ expectations.checks ↔ ∃ index rest, check.line = index + 1 ∧
      (byteLines content)[index]? = some (encode "# CHECK: " ++ rest) ∧
      check.pattern = decode rest
  fault : ∀ fault, Expectations.ofCase case = .error fault → ∃ index rest,
    fault.line = index + 1 ∧ (byteLines content)[index]? = some (encode "# EXIT " ++ rest) ∧
      TrimsTo (decode rest).toList fault.value.toList

theorem Expectations.standsIn_map_decode_iff {lines : List (List UInt8)} {check : Check} :
    StandsIn (lines.map decode) check ↔ ∃ index rest, check.line = index + 1 ∧
      lines[index]? = some (encode "# CHECK: " ++ rest) ∧ check.pattern = decode rest := by
  simp only [StandsIn, List.getElem?_map, Option.map_eq_some_iff, Directive.decode_eq_check_iff]
  constructor
  · rintro ⟨index, lineEq, line, lineAt, rest, rfl, patternEq⟩
    exact ⟨index, rest, lineEq, lineAt, patternEq⟩
  · rintro ⟨index, rest, lineEq, lineAt, patternEq⟩
    exact ⟨index, lineEq, _, lineAt, rest, rfl, patternEq⟩

theorem Expectations.FirstInvalid.exists_of_map_decode {lines : List (List UInt8)}
    {fault : MalformedExit} (first : FirstInvalid (lines.map decode) fault) :
    ∃ index rest, fault.line = index + 1 ∧
      lines[index]? = some (encode "# EXIT " ++ rest) ∧
        TrimsTo (decode rest).toList fault.value.toList := by
  obtain ⟨before, line, after, linesEq, -, ⟨value, rfl, trims, -⟩, lineEq⟩ := first
  have lineAt : (lines.map decode)[before.length]? = some ("# EXIT " ++ value) := by
    rw [linesEq, List.getElem?_append_right (Nat.le_refl _), Nat.sub_self, List.getElem?_cons_zero]
  rw [List.getElem?_map, Option.map_eq_some_iff] at lineAt
  obtain ⟨line, lineAt, opened⟩ := lineAt
  obtain ⟨rest, rfl, rfl⟩ := Directive.decode_eq_exit_iff.mp opened
  exact ⟨before.length, rest, lineEq, lineAt, trims⟩

theorem TestCase.readFrom_of_lines {case : TestCase} {content : List UInt8}
    (linesEq : case.lines = (byteLines content).map decode) : case.ReadFrom content where
  lines := linesEq
  checks := by
    intro expectations read check
    obtain ⟨-, states⟩ := Expectations.ofCase_eq_ok_iff.mp read
    rw [states.mem_checks_iff, linesEq, Expectations.standsIn_map_decode_iff]
  fault := by
    intro fault refused
    have first := Expectations.ofCase_eq_error_iff.mp refused
    rw [linesEq] at first
    exact first.exists_of_map_decode

/-- Reading bytes never disturbs their lines.  They are divided at the newline bytes before or
after they are read, what stands in front of a newline has no part in what stands behind it,
and bytes that are a text are kept.  A line is a directive exactly by its first bytes, so a
test case that has been loaded numbers the lines of bytes of its file, and what was captured
is verified line by line. -/
theorem lossy_reading_keeps_lines :
    (∀ bytes, Text.lines (decode bytes) = (byteLines bytes).map decode) ∧
    (∀ front back, Text.lines (decode (front ++ 10 :: back)) =
      Text.lines (decode (front ++ [10])) ++ Text.lines (decode back)) ∧
    (∀ text, decode (encode text) = text) ∧
    (∀ line result, Directive.ofLine (decode line) = result ↔
      Directive.ReadsBytes line result) ∧
    (∀ files directory path case, TestCase.load files directory path = .ok case →
      ∃ folder name content, files.locate directory path = .ok (folder ++ [name]) ∧
        files.read directory (TestCase.joinPath (Location.path folder) name) = .ok content ∧
        case.ReadFrom content) ∧
    ∀ limit launched execution, Execution.Captured limit launched execution →
      ∃ ending bytes,
        (Capture.run limit.isSome launched.events).result? = some (.ok (ending, bytes)) ∧
        execution.lines = (byteLines bytes).map decode := by
  refine ⟨Text.lines_decode_eq_map_byteLines, ?_, decode_encode,
    fun _ _ => Directive.ofLine_decode_eq_iff, ?_, ?_⟩
  · intro front back
    simp only [Text.lines_decode_eq_map_byteLines, Text.byteLines_append_newline front back,
      List.map_append]
  · intro files directory path case loads
    obtain ⟨-, folder, name, content, located, reads, rfl⟩ := TestCase.load_eq_ok_iff.mp loads
    exact ⟨folder, name, content, located, reads,
      TestCase.readFrom_of_lines (Text.lines_decode_eq_map_byteLines content)⟩
  · rintro limit launched execution ⟨-, ending, bytes, returned, rfl⟩
    exact ⟨ending, bytes, returned, Text.lines_decode_eq_map_byteLines bytes⟩

/-- A line that breaks off inside of a character leaves the next one whole. -/
example : Text.lines (decode ([35, 226, 130, 13, 10] ++ encode "# ABORT")) =
    ["#\uFFFD", "# ABORT"] := by
  decide

end CaseHarness
