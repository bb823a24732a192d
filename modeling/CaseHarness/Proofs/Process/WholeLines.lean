import CaseHarness.Proofs.Process.Accounting
import CaseHarness.Proofs.Text.DecodedLines
import CaseHarness.Proofs.Verification.Placement

/-!
# Whole lines in the common buffer

The readers hand on whole lines, so that the lines of the two streams should be the
lines of the buffer.  The one piece of a stream that may lack a newline is the last
one: whatever the other reader appends behind it becomes part of the same line.  The
lines of the buffer are therefore an interleaving of the lines of the streams exactly
if nothing follows such a piece.
-/

namespace CaseHarness

namespace Reader

/-- The lines of bytes: what stands between newlines. -/
def rawLines (bytes : List UInt8) : List (List UInt8) :=
  (chunks bytes).map fun chunk => chunk.filter fun byte => byte ≠ newline

/-- The lines in which bytes are read as text. -/
def readLines (bytes : List UInt8) : List String :=
  Text.lines (Text.Utf8.decode bytes)

/-- The text of a chunk without its line end. -/
def chunkText (chunk : List UInt8) : String :=
  Text.Utf8.decode ((Text.cutLines 10 13 chunk).headD [])

variable {bytes chunk : List UInt8} {others : List (List UInt8)}

theorem head?_of_chunks_eq_cons (chunksEq : chunks bytes = chunk :: others) :
    chunk.head? = bytes.head? := by
  cases bytes with
  | nil => simp at chunksEq
  | cons byte rest =>
      unfold chunks at chunksEq
      split at chunksEq
      · cases chunksEq
        rfl
      · split at chunksEq <;> cases chunksEq <;> rfl

/-- Every chunk is one line. -/
theorem cutLines_eq_map_chunks (bytes : List UInt8) :
    Text.cutLines 10 13 bytes =
      (chunks bytes).map fun chunk => (Text.cutLines 10 13 chunk).headD [] := by
  induction bytes with
  | nil => rfl
  | cons byte rest ih =>
      by_cases isNewline : byte = newline
      · subst isNewline
        rw [chunks_newline_cons, List.map_cons, ← ih]
        exact Text.cutLines_newline 10 13 rest
      · have notNewline : byte ≠ 10 := isNewline
        cases restEq : chunks rest with
        | nil =>
            have restEmpty : rest = [] := by
              by_cases empty : rest = []
              · exact empty
              · exact absurd restEq (chunks_ne_nil empty)
            simp [restEmpty, chunks, isNewline, Text.cutLines, notNewline]
        | cons chunk others =>
            have headEq := head?_of_chunks_eq_cons restEq
            rw [restEq, List.map_cons] at ih
            have chunksEq : chunks (byte :: rest) = (byte :: chunk) :: others := by
              simp [chunks, isNewline, restEq]
            rw [chunksEq, List.map_cons]
            by_cases ending : byte = 13 ∧ rest.head? = some 10
            · rw [Text.cutLines_of_ending notNewline ending, ih,
                Text.cutLines_of_ending notNewline ⟨ending.1, headEq.trans ending.2⟩]
            · have kept {more : List UInt8} (sameHead : more.head? = rest.head?) :
                  Text.cutLines 10 13 (byte :: more) =
                    Text.prependLine [byte] (Text.cutLines 10 13 more) :=
                Text.cutLines_cons_of_ne notNewline fun isCarriage newlineNext =>
                  ending ⟨isCarriage, sameHead ▸ newlineNext⟩
              rw [kept rfl, kept headEq, ih]
              cases Text.cutLines 10 13 chunk <;> rfl

/-- Bytes are read line by line, each chunk as one line. -/
theorem readLines_eq_map_chunks (bytes : List UInt8) :
    readLines bytes = (chunks bytes).map chunkText := by
  rw [readLines, Text.Utf8.lines_decode, cutLines_eq_map_chunks, List.map_map]
  rfl

end Reader

namespace Capture

open Reader Verification

/-- Of the streams that were sent, one that does not end with a newline is the last that
was appended to the buffer. -/
def OpenLast (capture : Capture) (sent : Stream → List UInt8) : Prop :=
  ∀ stream, ¬ EndsLine (sent stream) → ∃ piece, capture.pieces.getLast? = some (stream, piece)

section Chunked

variable {capture : Capture} {sent : Stream → List UInt8}

theorem mem_piecesOf_of_mem_pieces {stream : Stream} {piece : List UInt8}
    (mem : (stream, piece) ∈ capture.pieces) : piece ∈ capture.piecesOf stream := by
  refine List.mem_map.mpr ⟨(stream, piece), ?_, rfl⟩
  simpa using mem

theorem piecesOf_of_pieces_eq {before : List (Stream × List UInt8)} {last : Stream}
    {lastPiece : List UInt8} (piecesEq : capture.pieces = before ++ [(last, lastPiece)])
    (stream : Stream) :
    capture.piecesOf stream = (before.filter fun entry => entry.1 = stream).map Prod.snd ++
      if last = stream then [lastPiece] else [] := by
  by_cases same : last = stream <;> simp [piecesOf, piecesEq, List.filter_append, same]

theorem openLast_of_endsLine
    (chunked : ∀ stream, capture.piecesOf stream = chunks (sent stream))
    (allEnd : ∀ piece ∈ (capture.pieces.map Prod.snd).dropLast, EndsLine piece) :
    capture.OpenLast sent := by
  intro stream isOpen
  have notAllEnd : ¬ ∀ piece ∈ capture.piecesOf stream, EndsLine piece := by
    intro ownEnd
    have ends := endsLine_flatten ownEnd
    rw [chunked, flatten_chunks] at ends
    exact isOpen ends
  rcases List.eq_nil_or_concat capture.pieces with empty | ⟨before, ⟨last, lastPiece⟩, piecesEq⟩
  · simp [piecesOf, empty] at notAllEnd
  · rw [List.concat_eq_append] at piecesEq
    by_cases same : last = stream
    · exact ⟨lastPiece, by simp [piecesEq, same]⟩
    · -- All pieces of the stream stand before the last piece of the buffer.
      refine absurd (fun piece mem => allEnd piece ?_) notAllEnd
      rw [piecesOf_of_pieces_eq piecesEq, if_neg same, List.append_nil] at mem
      have earlier := (List.filter_sublist.map Prod.snd).subset mem
      simpa [piecesEq] using earlier

theorem OpenLast.endsLine (openLast : capture.OpenLast sent)
    (chunked : ∀ stream, capture.piecesOf stream = chunks (sent stream)) :
    ∀ piece ∈ (capture.pieces.map Prod.snd).dropLast, EndsLine piece := by
  rcases List.eq_nil_or_concat capture.pieces with empty | ⟨before, ⟨last, lastPiece⟩, piecesEq⟩
  · simp [empty]
  rw [List.concat_eq_append] at piecesEq
  have beforeEq : (capture.pieces.map Prod.snd).dropLast = before.map Prod.snd := by
    simp [piecesEq]
  rw [beforeEq]
  intro piece mem
  obtain ⟨⟨stream, piece⟩, entryMem, rfl⟩ := List.mem_map.mp mem
  have ownMem : piece ∈ (before.filter fun entry => entry.1 = stream).map Prod.snd :=
    List.mem_map.mpr ⟨(stream, piece), by simpa using entryMem, rfl⟩
  have partEq := piecesOf_of_pieces_eq piecesEq stream
  rw [chunked] at partEq
  by_cases same : last = stream
  · have earlier : piece ∈ (chunks (sent stream)).dropLast := by
      rw [partEq, if_pos same, List.dropLast_concat]
      exact ownMem
    exact endsLine_of_mem_dropLast_chunks earlier
  · have ends : EndsLine (sent stream) := by
      by_cases ends : EndsLine (sent stream)
      · exact ends
      · obtain ⟨own, ownLast⟩ := openLast stream ends
        have sameEntry : last = stream ∧ lastPiece = own := by simpa [piecesEq] using ownLast
        exact absurd sameEntry.1 same
    exact ends.of_mem_chunks (partEq ▸ List.mem_append_left _ ownMem)

end Chunked

/-- Each reader has finished or holds nothing, and nothing was appended behind a stream
that does not end with a newline. -/
def Undivided (limited : Bool) (events : List CaptureEvent) : Prop :=
  (∀ stream, ((run limited events).reader stream).result = some (.ok ()) ∨
    ((run limited events).reader stream).held = []) ∧
  (run limited events).OpenLast (taken limited events)

theorem undivided_iff (limited : Bool) (events : List CaptureEvent) :
    Undivided limited events ↔
      (∀ stream, ((run limited events).reader stream).held = []) ∧
        (run limited events).OpenLast (taken limited events) := by
  have heldIff (stream : Stream) : ((run limited events).reader stream).result = some (.ok ()) ∨
      ((run limited events).reader stream).held = [] ↔
        ((run limited events).reader stream).held = [] :=
    or_iff_right_of_imp fun finished => ((accounted_run limited events stream).emptied finished).2
  simp only [Undivided, heldIff]

section Run

variable (limited : Bool) (events : List CaptureEvent)

theorem chunks_of_mem_pieces :
    ∀ piece ∈ (run limited events).pieces.map Prod.snd, chunks piece = [piece] := by
  intro piece mem
  obtain ⟨⟨stream, piece⟩, entryMem, rfl⟩ := List.mem_map.mp mem
  have ownMem := List.mem_append_left (chunks ((run limited events).reader stream).held)
    (mem_piecesOf_of_mem_pieces entryMem)
  exact chunks_of_mem ((accounted_run limited events stream).chunked ▸ ownMem)

theorem piecesOf_eq_chunks {stream : Stream}
    (empty : ((run limited events).reader stream).held = []) :
    (run limited events).piecesOf stream = chunks (taken limited events stream) := by
  have chunked := (accounted_run limited events stream).chunked
  rwa [empty, chunks_nil, List.append_nil] at chunked

/-- The buffer has fewer chunks than the streams if a reader holds some or if two of them
were joined. -/
theorem held_eq_nil_of_length_chunks
    (lengthEq : (chunks (run limited events).bytes).length =
      (chunks (taken limited events .output)).length +
        (chunks (taken limited events .errors)).length) :
    (∀ stream, ((run limited events).reader stream).held = []) ∧
      ∀ piece ∈ ((run limited events).pieces.map Prod.snd).dropLast, EndsLine piece := by
  have single := chunks_of_mem_pieces limited events
  have chunksLe := length_chunks_flatten_le single
  have bufferLength := (run limited events).merges_pieces.length_eq
  have partLength (stream : Stream) : ((run limited events).piecesOf stream).length +
      (chunks ((run limited events).reader stream).held).length =
        (chunks (taken limited events stream)).length := by
    rw [← List.length_append, (accounted_run limited events stream).chunked]
  have outputLength := partLength .output
  have errorsLength := partLength .errors
  rw [bytes_eq_flatten] at lengthEq
  constructor
  · intro stream
    have noChunk : (chunks ((run limited events).reader stream).held).length = 0 := by
      cases stream <;> omega
    rw [← flatten_chunks ((run limited events).reader stream).held,
      List.eq_nil_of_length_eq_zero noChunk]
    rfl
  · exact endsLine_of_length_chunks_flatten single (by omega)

/-- What is seen of the chunks of the buffer is an interleaving of what is seen of the
chunks of the streams exactly if no chunk is held or joined to another one. -/
theorem merges_chunks_iff {α : Type} (image : List UInt8 → α) :
    Merges (fun stream => (chunks (taken limited events stream)).map image)
        ((chunks (run limited events).bytes).map image) ↔
      Undivided limited events := by
  rw [undivided_iff]
  constructor
  · intro merges
    have lengthEq := merges.length_eq
    simp only [List.length_map] at lengthEq
    obtain ⟨empty, allEnd⟩ := held_eq_nil_of_length_chunks limited events lengthEq
    have chunked (stream : Stream) := piecesOf_eq_chunks limited events (empty stream)
    exact ⟨empty, openLast_of_endsLine chunked allEnd⟩
  · rintro ⟨empty, openLast⟩
    have chunked (stream : Stream) := piecesOf_eq_chunks limited events (empty stream)
    have merges := (run limited events).merges_pieces.map image
    rw [bytes_eq_flatten, chunks_flatten (chunks_of_mem_pieces limited events)
      (openLast.endsLine chunked)]
    simpa only [chunked] using merges

end Run

/-- Patterns that stand on different lines of the streams stand on different lines of
an interleaving. -/
theorem exists_different_places {parts : Stream → List String} {lines : List String}
    (merges : Merges parts lines) {first second : Stream} {firstIndex secondIndex : Nat}
    {firstPattern secondPattern : String}
    (different : (first, firstIndex) ≠ (second, secondIndex))
    (firstHolds : LineHolds (parts first) firstIndex firstPattern)
    (secondHolds : LineHolds (parts second) secondIndex secondPattern) :
    ∃ firstPlace secondPlace, firstPlace ≠ secondPlace ∧
      LineHolds lines firstPlace firstPattern ∧ LineHolds lines secondPlace secondPattern := by
  obtain ⟨place, placed, injective⟩ := merges.exists_places
  obtain ⟨firstLine, firstAt, firstIn⟩ := firstHolds
  obtain ⟨secondLine, secondAt, secondIn⟩ := secondHolds
  refine ⟨place first firstIndex, place second secondIndex, ?_,
    ⟨firstLine, placed first firstIndex firstLine firstAt, firstIn⟩,
    ⟨secondLine, placed second secondIndex secondLine secondAt, secondIn⟩⟩
  intro samePlace
  obtain ⟨firstBound, -⟩ := List.getElem?_eq_some_iff.mp firstAt
  obtain ⟨secondBound, -⟩ := List.getElem?_eq_some_iff.mp secondAt
  obtain ⟨sameStream, sameIndex⟩ :=
    injective first second firstIndex secondIndex firstBound secondBound samePlace
  exact different (by rw [sameStream, sameIndex])

/-- The lines of the buffer are an interleaving of the lines of the two streams, as bytes
and as text, exactly if nothing was appended behind a stream that does not end with a
newline.  Then patterns that stand on different lines of the streams stand on different
lines of the output. -/
theorem interleaves_lines_iff (limited : Bool) (events : List CaptureEvent) :
    (Merges (fun stream => rawLines (taken limited events stream))
        (rawLines (run limited events).bytes) ↔ Undivided limited events) ∧
      (Merges (fun stream => readLines (taken limited events stream))
        (readLines (run limited events).bytes) ↔ Undivided limited events) ∧
      (Undivided limited events → ∀ first second firstIndex secondIndex firstPattern secondPattern,
        (first, firstIndex) ≠ (second, secondIndex) →
        LineHolds (readLines (taken limited events first)) firstIndex firstPattern →
        LineHolds (readLines (taken limited events second)) secondIndex secondPattern →
        ∃ firstPlace secondPlace, firstPlace ≠ secondPlace ∧
          LineHolds (readLines (run limited events).bytes) firstPlace firstPattern ∧
          LineHolds (readLines (run limited events).bytes) secondPlace secondPattern) := by
  have textIff : Merges (fun stream => readLines (taken limited events stream))
      (readLines (run limited events).bytes) ↔ Undivided limited events := by
    simp only [readLines_eq_map_chunks]
    exact merges_chunks_iff limited events chunkText
  refine ⟨merges_chunks_iff limited events _, textIff, ?_⟩
  intro undivided first second firstIndex secondIndex firstPattern secondPattern different
    firstHolds secondHolds
  exact exists_different_places (textIff.mpr undivided) different firstHolds secondHolds

/-- Both streams were read to their ends, but what the second one wrote stands on the last
line of the first one: no two lines of the output hold the two patterns. -/
theorem open_line_joins_other_stream :
    let events : List CaptureEvent :=
      [.taken .output [97], .supplied .output .ended, .advanced .output, .advanced .output,
        .taken .errors [98], .supplied .errors .ended, .advanced .errors, .advanced .errors,
        .childEnded (.exited 0)]
    (run false events).result? = some (.ok (some (.exited 0), [97, 98])) ∧
      (∀ stream, ((run false events).reader stream).result = some (.ok ())) ∧
      LineHolds (readLines (taken false events .output)) 0 "a" ∧
      LineHolds (readLines (taken false events .errors)) 0 "b" ∧
      ¬ Merges (fun stream => rawLines (taken false events stream))
        (rawLines (run false events).bytes) ∧
      ¬ Merges (fun stream => readLines (taken false events stream))
        (readLines (run false events).bytes) ∧
      ¬ ∃ firstPlace secondPlace, firstPlace ≠ secondPlace ∧
        LineHolds (readLines (run false events).bytes) firstPlace "a" ∧
        LineHolds (readLines (run false events).bytes) secondPlace "b" := by
  intro events
  have outputEq : readLines (run false events).bytes = ["ab"] := by decide
  have loneLine {position : Nat} {pattern : String}
      (holds : LineHolds (readLines (run false events).bytes) position pattern) :
      position = 0 := by
    obtain ⟨line, lineAt, -⟩ := holds
    obtain ⟨bound, -⟩ := List.getElem?_eq_some_iff.mp lineAt
    rw [outputEq, List.length_singleton] at bound
    omega
  refine ⟨rfl, ?_, ⟨"a", by decide, by decide⟩, ⟨"b", by decide, by decide⟩, ?_, ?_, ?_⟩
  · intro stream
    cases stream <;> rfl
  · intro merges
    have lengths := merges.length_eq
    revert lengths
    decide
  · intro merges
    have lengths := merges.length_eq
    revert lengths
    decide
  · rintro ⟨firstPlace, secondPlace, different, firstHolds, secondHolds⟩
    exact different ((loneLine firstHolds).trans (loneLine secondHolds).symm)

end Capture

end CaseHarness
