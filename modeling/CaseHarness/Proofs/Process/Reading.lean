import CaseHarness.Proofs.Process.Chunks

/-!
# What readers take and hand on

However the events of a capture are ordered, each reader works on its own stream
only.  `Reading` relates the bytes it has taken from its pipe, the pieces it has put
into the common buffer and its own state; every event of a capture keeps it, for
both streams at once.  The pieces are the first chunks of the bytes taken, and what
is in the reader's hand is exactly what the buffer lacks.
-/

namespace CaseHarness

namespace Reader

/-- What a reader takes of the bytes that are offered to it. -/
def accepted (reader : Reader) (bytes : List UInt8) : List UInt8 :=
  match reader.supply, reader.result with
  | .flowing, none => bytes
  | _, _ => []

/-- A step of a reader does nothing, hands on a whole line, hands on the rest of an ended
stream, or finishes in one of the two ways. -/
theorem advance_cases (reader : Reader) :
    ((reader.result ≠ none ∨ (reader.supply = .flowing ∧ newline ∉ reader.held)) ∧
        reader.advance = (none, reader)) ∨
      (reader.result = none ∧ ∃ line rest, firstLine? reader.held = some (line, rest) ∧
        reader.advance = (some line, { reader with held := rest })) ∨
      (reader.result = none ∧ newline ∉ reader.held ∧
        ((reader.supply = .ended ∧ reader.held ≠ [] ∧
            reader.advance = (some reader.held, { reader with held := [] })) ∨
          (reader.supply = .ended ∧ reader.held = [] ∧
            reader.advance = (none, { reader with result := some (.ok ()) })) ∨
          ∃ fault, reader.supply = .failing fault ∧
            reader.advance = (none, { reader with result := some (.error fault) }))) := by
  cases resultEq : reader.result with
  | some result => exact Or.inl ⟨Or.inl (by simp), by simp [advance, resultEq]⟩
  | none =>
      cases found : firstLine? reader.held with
      | some pair =>
          exact Or.inr (Or.inl ⟨rfl, pair.1, pair.2, rfl, by simp [advance, resultEq, found]⟩)
      | none =>
          have clean := firstLine?_eq_none_iff.mp found
          cases supplyEq : reader.supply with
          | flowing =>
              exact Or.inl ⟨Or.inr ⟨rfl, clean⟩, by simp [advance, resultEq, found, supplyEq]⟩
          | ended =>
              refine Or.inr (Or.inr ⟨rfl, clean, ?_⟩)
              by_cases empty : reader.held = []
              · exact Or.inr (Or.inl ⟨rfl, empty, by
                  simp [advance, resultEq, supplyEq, empty, firstLine?]⟩)
              · exact Or.inl ⟨rfl, empty, by
                  simp [advance, resultEq, found, supplyEq, empty]⟩
          | failing fault =>
              exact Or.inr (Or.inr ⟨rfl, clean, Or.inr (Or.inr ⟨fault, rfl, by
                simp [advance, resultEq, found, supplyEq]⟩)⟩)

/-- The bytes a reader has taken, the pieces it has handed on, and its state. -/
structure Reading (taken : List UInt8) (pieces : List (List UInt8)) (reader : Reader) :
    Prop where
  /-- Every byte taken was handed on or is in the reader's hand. -/
  conserved : pieces.flatten ++ reader.held = taken
  /-- The pieces are the first chunks of the bytes taken. -/
  chunked : pieces ++ chunks reader.held = chunks taken
  /-- Before the stream has ended only whole lines are handed on. -/
  endsLine : reader.supply ≠ .ended → EndsLine pieces.flatten
  running : reader.supply = .flowing → reader.result = none
  /-- A reader that finished without a fault has nothing in its hand. -/
  emptied : reader.result = some (.ok ()) → reader.supply = .ended ∧ reader.held = []
  /-- A reader that failed has handed on all whole lines. -/
  broken : ∀ fault, reader.result = some (.error fault) →
    reader.supply = .failing fault ∧ newline ∉ reader.held

namespace Reading

variable {taken : List UInt8} {pieces : List (List UInt8)} {reader : Reader}

theorem initial : Reading [] [] {} where
  conserved := rfl
  chunked := rfl
  endsLine _ := endsLine_nil
  running _ := rfl
  emptied finished := by cases finished
  broken _ failed := by cases failed

/-- As long as the stream flows, the pieces are its whole lines so far. -/
theorem pieces_eq_chunks (reading : Reading taken pieces reader)
    (flowing : reader.supply = .flowing) : pieces = chunks pieces.flatten := by
  have ends : EndsLine pieces.flatten := reading.endsLine (by simp [flowing])
  have cut := reading.chunked
  rw [← reading.conserved, chunks_append_of_endsLine ends] at cut
  exact List.append_cancel_right cut

theorem take (reading : Reading taken pieces reader) (bytes : List UInt8) :
    Reading (taken ++ reader.accepted bytes) pieces (reader.take bytes) := by
  cases supplyEq : reader.supply with
  | ended | failing fault =>
      have same : reader.take bytes = reader := by simp [Reader.take, supplyEq]
      have nothing : reader.accepted bytes = [] := by simp [accepted, supplyEq]
      rw [same, nothing, List.append_nil]
      exact reading
  | flowing =>
      have running := reading.running supplyEq
      have takeEq : reader.take bytes = { reader with held := reader.held ++ bytes } := by
        simp [Reader.take, supplyEq, running]
      have all : reader.accepted bytes = bytes := by simp [accepted, supplyEq, running]
      have ends : EndsLine pieces.flatten := reading.endsLine (by simp [supplyEq])
      rw [takeEq, all]
      refine ⟨?_, ?_, fun _ => ends, fun _ => running, ?_, ?_⟩
      · rw [← reading.conserved, List.append_assoc]
      · rw [← reading.conserved, List.append_assoc, chunks_append_of_endsLine ends,
          ← reading.pieces_eq_chunks supplyEq]
      · intro finished
        simp [running] at finished
      · intro fault failed
        simp [running] at failed

theorem learn (reading : Reading taken pieces reader) (supply : Supply) :
    Reading taken pieces (reader.learn supply) := by
  cases supplyEq : reader.supply with
  | ended | failing fault =>
      have same : reader.learn supply = reader := by simp [Reader.learn, supplyEq]
      rw [same]
      exact reading
  | flowing =>
      have running := reading.running supplyEq
      have learnEq : reader.learn supply = { reader with supply := supply } := by
        simp [Reader.learn, supplyEq]
      rw [learnEq]
      refine ⟨reading.conserved, reading.chunked, fun _ => reading.endsLine (by simp [supplyEq]),
        fun _ => running, ?_, ?_⟩
      · intro finished
        simp [running] at finished
      · intro fault failed
        simp [running] at failed

theorem advance (reading : Reading taken pieces reader) :
    Reading taken (pieces ++ reader.advance.1.toList) reader.advance.2 := by
  rcases reader.advance_cases with ⟨-, stays⟩ | ⟨running, line, rest, found, moves⟩ |
    ⟨running, clean, ⟨ended, nonempty, moves⟩ | ⟨ended, empty, moves⟩ | ⟨fault, failing, moves⟩⟩
  · simpa [stays] using reading
  · have heldEq := firstLine?_append found
    simp only [moves, Option.toList_some]
    refine ⟨?_, ?_, ?_, reading.running, ?_, ?_⟩
    · rw [List.flatten_append, List.append_assoc, ← reading.conserved]
      simp [heldEq]
    · rw [← reading.chunked, chunks_of_firstLine?_eq_some found, List.append_assoc]
      rfl
    · intro open_
      simpa using (reading.endsLine open_).append (endsLine_of_firstLine?_eq_some found)
    · intro finished
      simp [running] at finished
    · intro fault failed
      simp [running] at failed
  · simp only [moves, Option.toList_some]
    refine ⟨?_, ?_, fun open_ => absurd ended open_, reading.running, fun _ => ⟨ended, rfl⟩, ?_⟩
    · rw [← reading.conserved]
      simp
    · rw [← reading.chunked, chunks_of_notMem clean nonempty]
      simp
    · intro fault failed
      simp [running] at failed
  · simp only [moves, Option.toList_none, List.append_nil]
    refine ⟨reading.conserved, reading.chunked, reading.endsLine, ?_, fun _ => ⟨ended, empty⟩, ?_⟩
    · intro flowing
      simp [ended] at flowing
    · intro fault failed
      simp at failed
  · simp only [moves, Option.toList_none, List.append_nil]
    refine ⟨reading.conserved, reading.chunked, reading.endsLine, ?_, ?_, ?_⟩
    · intro flowing
      simp [failing] at flowing
    · intro finished
      simp at finished
    · intro other failed
      simp only [Option.some.injEq, Except.error.injEq] at failed
      exact ⟨failed ▸ failing, clean⟩

/-- A reader that has nothing left to hand on is empty-handed, or it holds the beginning of
a line of a stream that has not ended. -/
theorem held_of_idle (reading : Reading taken pieces reader) (idle : reader.advance.1 = none) :
    reader.held = [] ∨ (reader.supply ≠ .ended ∧ newline ∉ reader.held) := by
  rcases reader.advance_cases with ⟨finished | ⟨flowing, clean⟩, -⟩ | ⟨-, line, rest, -, moves⟩ |
    ⟨-, clean, ⟨-, -, moves⟩ | ⟨-, empty, -⟩ | ⟨fault, failing, -⟩⟩
  · obtain ⟨result, resultEq⟩ := Option.ne_none_iff_exists'.mp finished
    cases result with
    | ok _ => exact Or.inl (reading.emptied resultEq).2
    | error fault =>
        obtain ⟨failing, clean⟩ := reading.broken fault resultEq
        exact Or.inr ⟨by simp [failing], clean⟩
  · exact Or.inr ⟨by simp [flowing], clean⟩
  · simp [moves] at idle
  · simp [moves] at idle
  · exact Or.inl empty
  · exact Or.inr ⟨by simp [failing], clean⟩

/-- A reader is empty-handed exactly if it has nothing left to hand on and either its stream
has ended or what it has taken ends with a line. -/
theorem held_eq_nil_iff (reading : Reading taken pieces reader) :
    reader.held = [] ↔
      reader.advance.1 = none ∧ (reader.supply = .ended ∨ EndsLine taken) := by
  constructor
  · intro empty
    constructor
    · rcases reader.advance_cases with ⟨-, stays⟩ | ⟨-, line, rest, found, -⟩ |
        ⟨-, -, ⟨-, nonempty, -⟩ | ⟨-, -, moves⟩ | ⟨fault, -, moves⟩⟩
      · rw [stays]
      · simp [empty, firstLine?] at found
      · exact absurd empty nonempty
      · rw [moves]
      · rw [moves]
    · by_cases ended : reader.supply = .ended
      · exact Or.inl ended
      · have ends := reading.endsLine ended
        rw [← reading.conserved, empty, List.append_nil]
        exact Or.inr ends
  · rintro ⟨idle, complete⟩
    rcases reading.held_of_idle idle with empty | ⟨open_, clean⟩
    · exact empty
    · have ends : EndsLine taken := complete.resolve_left open_
      by_cases empty : reader.held = []
      · exact empty
      · rw [← reading.conserved, endsLine_append_of_ne_nil _ empty] at ends
        exact ends.eq_nil_of_notMem clean

end Reading

end Reader

end CaseHarness
