import CaseHarness.Proofs.Text.Decoding
import CaseHarness.Text.Lines

/-!
# Lines of decoded bytes

Bytes that are no text are replaced when they are read, but never across the end of a
line: a newline byte is always read as a newline, it ends every unfinished character,
and nothing else is read as a newline.  The same holds for carriage returns.  So
decoding and cutting into lines may be done in either order.
-/

namespace CaseHarness.Text

section Cutting

variable {α : Type} [DecidableEq α] {newline carriage : α}

/-- Put marks in front of the first line. -/
def prependLine (marks : List α) : List (List α) → List (List α)
  | [] => if marks = [] then [] else [marks]
  | line :: lines => (marks ++ line) :: lines

theorem cutLines_cons_of_ne {mark : α} {rest : List α} (notNewline : mark ≠ newline)
    (notEnding : mark = carriage → rest.head? ≠ some newline) :
    cutLines newline carriage (mark :: rest) =
      prependLine [mark] (cutLines newline carriage rest) := by
  have noEnd : ¬ (mark = carriage ∧ rest.head? = some newline) :=
    fun ⟨isCarriage, headEq⟩ => notEnding isCarriage headEq
  rw [cutLines, if_neg notNewline, if_neg noEnd]
  cases cutLines newline carriage rest <;> rfl

theorem cutLines_of_ending {mark : α} {rest : List α} (notNewline : mark ≠ newline)
    (ending : mark = carriage ∧ rest.head? = some newline) :
    cutLines newline carriage (mark :: rest) = cutLines newline carriage rest := by
  rw [cutLines, if_neg notNewline, if_pos ending]

/-- Marks that belong to no line end are put in front of the first line that follows. -/
theorem cutLines_append {marks rest : List α} (clean : newline ∉ marks)
    (notEnding : carriage ∈ marks → rest.head? ≠ some newline) :
    cutLines newline carriage (marks ++ rest) =
      prependLine marks (cutLines newline carriage rest) := by
  induction marks with
  | nil =>
      rw [List.nil_append]
      cases cutLines newline carriage rest <;> rfl
  | cons mark marks ih =>
      have tail := ih (fun mem => clean (List.mem_cons_of_mem mark mem))
        (fun mem => notEnding (List.mem_cons_of_mem mark mem))
      have notNewline : mark ≠ newline := fun same => clean (by simp [same])
      have inside : mark = carriage → (marks ++ rest).head? ≠ some newline := by
        intro isCarriage
        cases marks with
        | nil => exact notEnding (by simp [isCarriage])
        | cons next marks =>
            simp only [List.cons_append, List.head?_cons, ne_eq, Option.some.injEq]
            exact fun same => clean (by simp [same])
      rw [List.cons_append, cutLines_cons_of_ne notNewline inside, tail]
      cases cutLines newline carriage rest with
      | nil => by_cases empty : marks = [] <;> simp [prependLine, empty]
      | cons line lines => simp [prependLine]

end Cutting

namespace Utf8

variable {state : Option Partial} {byte : UInt8} {bytes : List UInt8}

theorem not_beyond_newline : ¬ Beyond '\n' := by
  unfold Beyond
  decide

theorem not_beyond_carriage : ¬ Beyond '\r' := by
  unfold Beyond
  decide

theorem eq_of_ofNat_eq {control : UInt8} (ascii : byte.toNat < 128)
    (controlAscii : control.toNat < 128)
    (same : Char.ofNat byte.toNat = Char.ofNat control.toNat) : byte = control := by
  have values := congrArg Char.toNat same
  rw [toNat_ofNat (by omega), toNat_ofNat (by omega)] at values
  exact UInt8.toNat_inj.mp values

/-- Only a newline byte is read as a newline at the beginning. -/
theorem head?_of_decodeFrom_eq_newline (ready : Ready state)
    (headEq : (decodeFrom state bytes).head? = some '\n') :
    state = none ∧ bytes.head? = some 10 := by
  obtain ⟨nothing, byte, rest, rfl, byteEq⟩ :=
    head?_of_decodeFrom_eq_ascii (by decide) ready headEq
  have isNewline : byte = 10 := UInt8.toNat_inj.mp byteEq
  exact ⟨nothing, by rw [isNewline, List.head?_cons]⟩

/-- A byte that ends no line is read as characters that end no line. -/
theorem step_inner {rest : List UInt8} (ready : Ready state) (notNewline : byte ≠ 10)
    (notEnding : ¬ (byte = 13 ∧ rest.head? = some 10)) :
    Ready (step state byte).2 ∧
      (step state byte).1 ++ decodeFrom (step state byte).2 [] ≠ [] ∧
      '\n' ∉ (step state byte).1 ∧
      ('\r' ∈ (step state byte).1 →
        (decodeFrom (step state byte).2 rest).head? ≠ some '\n') := by
  by_cases ascii : byte.toNat < 128
  · have controlOf (control : UInt8) (small : control.toNat < 128)
        (notBeyond : ¬ Beyond (Char.ofNat control.toNat))
        (mem : Char.ofNat control.toNat ∈ (step state byte).1) : byte = control := by
      rw [step_ascii ready ascii, List.mem_append, List.mem_singleton] at mem
      rcases mem with unfinished | itself
      · exact absurd (beyond_of_mem_decodeFrom_nil unfinished) notBeyond
      · exact eq_of_ofNat_eq ascii small itself.symm
    refine ⟨by simp [step_ascii ready ascii, ready_none], by simp [step_ascii ready ascii], ?_, ?_⟩
    · intro mem
      exact notNewline (controlOf 10 (by decide) not_beyond_newline mem)
    · intro mem headEq
      have isCarriage : byte = 13 := controlOf 13 (by decide) not_beyond_carriage mem
      rw [step_ascii ready ascii] at headEq
      exact notEnding ⟨isCarriage, (head?_of_decodeFrom_eq_newline ready_none headEq).2⟩
  · obtain ⟨beyond, nextReady, nonempty⟩ := step_beyond ready (Nat.le_of_not_lt ascii)
    exact ⟨nextReady, nonempty, fun mem => not_beyond_newline (beyond _ mem),
      fun mem => absurd (beyond _ mem) not_beyond_carriage⟩

/-- Read each of a sequence of lines, the first one from a given state. -/
def decodeLines (state : Option Partial) : List (List UInt8) → List (List Char)
  | [] => prependLine (decodeFrom state []) []
  | line :: lines => decodeFrom state line :: lines.map (decodeFrom none)

theorem decodeLines_none (lines : List (List UInt8)) :
    decodeLines none lines = lines.map (decodeFrom none) := by
  cases lines <;> rfl

theorem decodeLines_prependLine
    (nonempty : (step state byte).1 ++ decodeFrom (step state byte).2 [] ≠ [])
    (lines : List (List UInt8)) :
    decodeLines state (prependLine [byte] lines) =
      prependLine (step state byte).1 (decodeLines (step state byte).2 lines) := by
  cases lines with
  | cons line lines => simp [prependLine, decodeLines, decodeFrom_cons]
  | nil =>
      by_cases rest : decodeFrom (step state byte).2 [] = []
      · rw [rest, List.append_nil] at nonempty
        simp [prependLine, decodeLines, decodeFrom_cons, rest, nonempty]
      · simp [prependLine, decodeLines, decodeFrom_cons, rest]

/-- Decoding and cutting into lines may be done in either order. -/
theorem cutLines_decodeFrom (ready : Ready state) (bytes : List UInt8) :
    cutLines '\n' '\r' (decodeFrom state bytes) = decodeLines state (cutLines 10 13 bytes) := by
  have cleanEnd {mark : Char} (control : ¬ Beyond mark) (state : Option Partial) :
      mark ∉ decodeFrom state [] := fun mem => control (beyond_of_mem_decodeFrom_nil mem)
  have unfinished (state : Option Partial) (others : List Char) :
      cutLines '\n' '\r' (decodeFrom state [] ++ others) =
        prependLine (decodeFrom state []) (cutLines '\n' '\r' others) :=
    cutLines_append (cleanEnd not_beyond_newline state)
      fun mem => absurd mem (cleanEnd not_beyond_carriage state)
  induction bytes generalizing state with
  | nil => simpa [decodeLines] using unfinished state []
  | cons byte rest ih =>
      have emptyLine (lines : List (List UInt8)) :
          prependLine (decodeFrom state []) (decodeLines none ([] :: lines)) =
            decodeLines state ([] :: lines) := by
        simp [prependLine, decodeLines]
      rw [decodeFrom_cons]
      by_cases isNewline : byte = 10
      · -- A newline byte ends the line, whatever was unfinished before it.
        subst isNewline
        have charEq : Char.ofNat (10 : UInt8).toNat = '\n' := rfl
        rw [step_ascii ready (by decide), charEq, List.append_assoc, unfinished,
          List.singleton_append, cutLines_newline, cutLines_newline, ih ready_none, ← emptyLine,
          decodeLines_none, decodeLines_none]
        rfl
      · by_cases ending : byte = 13 ∧ rest.head? = some 10
        · -- The carriage return and the newline behind it end the line together.
          obtain ⟨rfl, headEq⟩ := ending
          obtain ⟨more, rfl⟩ := List.head?_eq_some_iff.mp headEq
          have charEq : Char.ofNat (13 : UInt8).toNat = '\r' := rfl
          have newlineNext : (decodeFrom none (10 :: more)).head? = some '\n' := rfl
          have dropped : cutLines '\n' '\r' ('\r' :: decodeFrom none (10 :: more)) =
              cutLines '\n' '\r' (decodeFrom none (10 :: more)) :=
            cutLines_of_ending (by decide) ⟨rfl, newlineNext⟩
          rw [step_ascii ready (by decide), charEq, List.append_assoc, unfinished,
            List.singleton_append, dropped, ih ready_none,
            cutLines_of_ending (by decide) ⟨rfl, rfl⟩, cutLines_newline, emptyLine]
        · -- Every other byte stays in front of the line that follows.
          have keptByte : cutLines 10 13 (byte :: rest) =
              prependLine [byte] (cutLines 10 13 rest) :=
            cutLines_cons_of_ne isNewline fun isCarriage headEq => ending ⟨isCarriage, headEq⟩
          obtain ⟨nextReady, nonempty, clean, notEnding⟩ := step_inner ready isNewline ending
          rw [cutLines_append clean notEnding, ih nextReady, keptByte,
            decodeLines_prependLine nonempty]

/-- The lines of decoded bytes are the decoded lines of the bytes. -/
theorem lines_decode (bytes : List UInt8) :
    lines (decode bytes) = (cutLines 10 13 bytes).map decode := by
  have cut := cutLines_decodeFrom ready_none bytes
  rw [decodeLines_none] at cut
  simp [lines, decode, cut, Function.comp_def]

end Utf8

end CaseHarness.Text
