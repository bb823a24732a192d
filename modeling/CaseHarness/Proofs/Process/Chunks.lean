import CaseHarness.Process.Capture

/-!
# Chunks of a stream

A stream is cut after every newline; the last chunk may lack one.  These are the
pieces in which a reader hands a stream on.  Cutting commutes with joining two
sequences exactly if the first one ends with a line, and otherwise the chunks that
meet at the joint become one.
-/

namespace CaseHarness.Reader

/-- Cut bytes after every newline. -/
def chunks : List UInt8 → List (List UInt8)
  | [] => []
  | byte :: rest =>
      if byte = newline then [byte] :: chunks rest
      else
        match chunks rest with
        | [] => [[byte]]
        | chunk :: others => (byte :: chunk) :: others

/-- Nothing stands behind the last newline. -/
def EndsLine (bytes : List UInt8) : Prop :=
  bytes = [] ∨ bytes.getLast? = some newline

instance (bytes : List UInt8) : Decidable (EndsLine bytes) :=
  inferInstanceAs (Decidable (_ ∨ _))

variable {byte : UInt8} {bytes first second line rest : List UInt8}

@[simp]
theorem chunks_nil : chunks [] = [] :=
  rfl

theorem endsLine_nil : EndsLine [] :=
  Or.inl rfl

theorem endsLine_append_newline : EndsLine (bytes ++ [newline]) :=
  Or.inr (by simp)

theorem endsLine_append_of_ne_nil (first : List UInt8) (nonempty : second ≠ []) :
    EndsLine (first ++ second) ↔ EndsLine second := by
  cases lastEq : second.getLast? with
  | none => exact absurd (List.getLast?_eq_none_iff.mp lastEq) nonempty
  | some last => simp [EndsLine, nonempty, List.getLast?_append, lastEq]

theorem endsLine_cons_of_ne_nil (nonempty : bytes ≠ []) :
    EndsLine (byte :: bytes) ↔ EndsLine bytes :=
  endsLine_append_of_ne_nil [byte] nonempty

theorem endsLine_singleton : EndsLine [byte] ↔ byte = newline := by
  simp [EndsLine]

theorem EndsLine.append (firstEnds : EndsLine first) (secondEnds : EndsLine second) :
    EndsLine (first ++ second) := by
  by_cases nonempty : second = []
  · simpa [nonempty] using firstEnds
  · exact (endsLine_append_of_ne_nil first nonempty).mpr secondEnds

theorem EndsLine.eq_nil_of_notMem (ends : EndsLine bytes) (clean : newline ∉ bytes) :
    bytes = [] := by
  rcases ends with empty | last
  · exact empty
  · exact absurd (List.mem_of_getLast? last) clean

theorem chunks_ne_nil (nonempty : bytes ≠ []) : chunks bytes ≠ [] := by
  cases bytes with
  | nil => exact absurd rfl nonempty
  | cons byte rest =>
      unfold chunks
      split
      · simp
      · split <;> simp

@[simp]
theorem chunks_newline_cons : chunks (newline :: rest) = [newline] :: chunks rest := by
  simp [chunks]

@[simp]
theorem flatten_chunks (bytes : List UInt8) : (chunks bytes).flatten = bytes := by
  induction bytes with
  | nil => rfl
  | cons byte rest ih =>
      unfold chunks
      split
      · simp [ih]
      · split
        · next restEq =>
          rw [restEq] at ih
          simp [← ih]
        · next chunk others restEq =>
          rw [restEq] at ih
          simp [← ih]

/-- Behind the end of a line, cutting begins anew. -/
theorem chunks_append_of_endsLine (ends : EndsLine first) :
    chunks (first ++ second) = chunks first ++ chunks second := by
  induction first with
  | nil => rfl
  | cons byte first ih =>
      by_cases isNewline : byte = newline
      · subst isNewline
        have restEnds : EndsLine first := by
          by_cases nonempty : first = []
          · exact Or.inl nonempty
          · exact (endsLine_cons_of_ne_nil nonempty).mp ends
        simp [ih restEnds]
      · have nonempty : first ≠ [] := by
          rintro rfl
          exact isNewline (endsLine_singleton.mp ends)
        have joined := ih ((endsLine_cons_of_ne_nil nonempty).mp ends)
        cases firstEq : chunks first with
        | nil => exact absurd firstEq (chunks_ne_nil nonempty)
        | cons chunk others =>
            rw [firstEq] at joined
            simp [chunks, isNewline, joined, firstEq]

/-- Where no line ends, the chunks on both sides of the joint become one. -/
theorem length_chunks_append_of_not_endsLine (open_ : ¬ EndsLine first)
    (nonempty : second ≠ []) :
    (chunks (first ++ second)).length + 1 = (chunks first).length + (chunks second).length := by
  induction first with
  | nil => exact absurd endsLine_nil open_
  | cons byte first ih =>
      by_cases isNewline : byte = newline
      · subst isNewline
        have firstNonempty : first ≠ [] := by
          rintro rfl
          exact open_ (endsLine_singleton.mpr rfl)
        have joined := ih fun ends => open_ ((endsLine_cons_of_ne_nil firstNonempty).mpr ends)
        simp only [List.cons_append, chunks_newline_cons, List.length_cons]
        omega
      · by_cases firstEmpty : first = []
        · subst firstEmpty
          cases secondEq : chunks second with
          | nil => exact absurd secondEq (chunks_ne_nil nonempty)
          | cons chunk others => simp [chunks, isNewline, secondEq, Nat.add_comm]
        · have joined := ih fun ends => open_ ((endsLine_cons_of_ne_nil firstEmpty).mpr ends)
          cases firstEq : chunks first with
          | nil => exact absurd firstEq (chunks_ne_nil firstEmpty)
          | cons chunk others =>
              cases joinedEq : chunks (first ++ second) with
              | nil =>
                  exact absurd joinedEq (chunks_ne_nil (List.append_ne_nil_of_left_ne_nil
                    firstEmpty second))
              | cons joinedChunk joinedOthers =>
                  rw [firstEq, joinedEq] at joined
                  simp only [List.cons_append, chunks, isNewline, firstEq, joinedEq, if_false,
                    List.length_cons] at joined ⊢
                  exact joined

theorem chunks_of_notMem (clean : newline ∉ bytes) (nonempty : bytes ≠ []) :
    chunks bytes = [bytes] := by
  induction bytes with
  | nil => exact absurd rfl nonempty
  | cons byte bytes ih =>
      have isOther : byte ≠ newline := fun same => clean (by simp [same])
      by_cases last : bytes = []
      · simp [chunks, isOther, last]
      · have restEq := ih (fun mem => clean (List.mem_cons_of_mem byte mem)) last
        simp [chunks, isOther, restEq]

theorem chunks_line (clean : newline ∉ bytes) :
    chunks (bytes ++ [newline]) = [bytes ++ [newline]] := by
  induction bytes with
  | nil => rfl
  | cons byte bytes ih =>
      have isOther : byte ≠ newline := fun same => clean (by simp [same])
      have restEq := ih fun mem => clean (List.mem_cons_of_mem byte mem)
      simp [chunks, isOther, restEq]

theorem firstLine?_eq_some (found : firstLine? bytes = some (line, rest)) :
    ∃ body, newline ∉ body ∧ line = body ++ [newline] ∧ bytes = line ++ rest := by
  induction bytes generalizing line rest with
  | nil => simp [firstLine?] at found
  | cons byte bytes ih =>
      by_cases isNewline : byte = newline
      · subst isNewline
        simp only [firstLine?, if_true, Option.some.injEq, Prod.mk.injEq] at found
        obtain ⟨rfl, rfl⟩ := found
        exact ⟨[], List.not_mem_nil, rfl, rfl⟩
      · cases tailEq : firstLine? bytes with
        | none => simp [firstLine?, isNewline, tailEq] at found
        | some pair =>
            simp only [firstLine?, isNewline, tailEq, if_false, Option.map_some,
              Option.some.injEq, Prod.mk.injEq] at found
            obtain ⟨rfl, rfl⟩ := found
            obtain ⟨body, clean, lineEq, bytesEq⟩ := ih tailEq
            refine ⟨byte :: body, ?_, by rw [lineEq]; rfl, by rw [List.cons_append, ← bytesEq]⟩
            simp [clean, Ne.symm isNewline]

theorem firstLine?_eq_none_iff : firstLine? bytes = none ↔ newline ∉ bytes := by
  induction bytes with
  | nil => simp [firstLine?]
  | cons byte bytes ih =>
      by_cases isNewline : byte = newline
      · simp [firstLine?, isNewline]
      · simp [firstLine?, isNewline, ih, Ne.symm isNewline]

theorem endsLine_of_firstLine?_eq_some (found : firstLine? bytes = some (line, rest)) :
    EndsLine line := by
  obtain ⟨body, -, rfl, -⟩ := firstLine?_eq_some found
  exact endsLine_append_newline

theorem chunks_of_firstLine?_eq_some (found : firstLine? bytes = some (line, rest)) :
    chunks bytes = line :: chunks rest := by
  obtain ⟨body, clean, rfl, rfl⟩ := firstLine?_eq_some found
  rw [chunks_append_of_endsLine endsLine_append_newline, chunks_line clean]
  rfl

section Sequences

variable {piece : List UInt8} {pieces : List (List UInt8)}

theorem chunks_of_mem (mem : piece ∈ chunks bytes) : chunks piece = [piece] := by
  induction bytes generalizing piece with
  | nil => simp at mem
  | cons byte rest ih =>
      unfold chunks at mem
      split at mem
      · next isNewline =>
        rcases List.mem_cons.mp mem with rfl | restMem
        · simp [isNewline]
        · exact ih restMem
      · next notNewline =>
        split at mem
        · rw [List.mem_singleton.mp mem]
          simp [chunks, notNewline]
        · next chunk others restEq =>
          rw [restEq] at ih
          rcases List.mem_cons.mp mem with rfl | restMem
          · simp [chunks, notNewline, ih List.mem_cons_self]
          · exact ih (List.mem_cons_of_mem chunk restMem)

theorem ne_nil_of_chunks_eq (single : chunks piece = [piece]) : piece ≠ [] := by
  rintro rfl
  simp at single

/-- Only the last chunk may lack a newline. -/
theorem endsLine_of_mem_dropLast_chunks (mem : piece ∈ (chunks bytes).dropLast) :
    EndsLine piece := by
  induction bytes generalizing piece with
  | nil => simp at mem
  | cons byte rest ih =>
      unfold chunks at mem
      split at mem
      · next isNewline =>
        cases restEq : chunks rest with
        | nil => simp [restEq] at mem
        | cons chunk others =>
            rw [restEq, List.dropLast_cons_cons] at mem
            rcases List.mem_cons.mp mem with rfl | restMem
            · exact endsLine_singleton.mpr isNewline
            · exact ih (restEq ▸ restMem)
      · split at mem
        · simp at mem
        · next chunk others restEq =>
          rw [restEq] at ih
          cases others with
          | nil => simp at mem
          | cons next others =>
              rw [List.dropLast_cons_cons] at mem ih
              rcases List.mem_cons.mp mem with rfl | restMem
              · have chunkMem : chunk ∈ chunks rest := by simp [restEq]
                have nonempty := ne_nil_of_chunks_eq (chunks_of_mem chunkMem)
                exact (endsLine_cons_of_ne_nil nonempty).mpr (ih List.mem_cons_self)
              · exact ih (List.mem_cons_of_mem chunk restMem)

theorem EndsLine.of_mem_chunks (ends : EndsLine bytes) (mem : piece ∈ chunks bytes) :
    EndsLine piece := by
  have nonempty : chunks bytes ≠ [] := List.ne_nil_of_mem mem
  have split := List.dropLast_concat_getLast nonempty
  rw [← split, List.mem_append, List.mem_singleton] at mem
  rcases mem with before | rfl
  · exact endsLine_of_mem_dropLast_chunks before
  · have lastNonempty := ne_nil_of_chunks_eq (chunks_of_mem (List.getLast_mem nonempty))
    rw [← flatten_chunks bytes, ← split, List.flatten_append, List.flatten_singleton,
      endsLine_append_of_ne_nil _ lastNonempty] at ends
    exact ends

theorem endsLine_flatten (allEnd : ∀ piece ∈ pieces, EndsLine piece) :
    EndsLine pieces.flatten := by
  induction pieces with
  | nil => exact endsLine_nil
  | cons piece pieces ih =>
      have restEnds := ih fun other mem => allEnd other (List.mem_cons_of_mem piece mem)
      exact (allEnd piece List.mem_cons_self).append restEnds

/-- Chunks that are put together are cut apart again if all but the last end a line. -/
theorem chunks_flatten (single : ∀ piece ∈ pieces, chunks piece = [piece])
    (allEnd : ∀ piece ∈ pieces.dropLast, EndsLine piece) : chunks pieces.flatten = pieces := by
  induction pieces with
  | nil => rfl
  | cons piece pieces ih =>
      cases pieces with
      | nil => simpa using single piece List.mem_cons_self
      | cons next pieces =>
          rw [List.dropLast_cons_cons] at allEnd
          have restEq := ih (fun other mem => single other (List.mem_cons_of_mem piece mem))
            fun other mem => allEnd other (List.mem_cons_of_mem piece mem)
          rw [List.flatten_cons, chunks_append_of_endsLine (allEnd piece List.mem_cons_self),
            restEq, single piece List.mem_cons_self]
          rfl

theorem length_chunks_append_le (first second : List UInt8) :
    (chunks (first ++ second)).length ≤ (chunks first).length + (chunks second).length := by
  by_cases ends : EndsLine first
  · simp [chunks_append_of_endsLine ends]
  · by_cases nonempty : second = []
    · simp [nonempty]
    · have joined := length_chunks_append_of_not_endsLine ends nonempty
      omega

theorem length_chunks_flatten_le (single : ∀ piece ∈ pieces, chunks piece = [piece]) :
    (chunks pieces.flatten).length ≤ pieces.length := by
  induction pieces with
  | nil => simp
  | cons piece pieces ih =>
      have restLe := ih fun other mem => single other (List.mem_cons_of_mem piece mem)
      have joinedLe := length_chunks_append_le piece pieces.flatten
      rw [single piece List.mem_cons_self, List.length_singleton] at joinedLe
      rw [List.flatten_cons, List.length_cons]
      omega

/-- Chunks that are put together stay as many only if all but the last end a line. -/
theorem endsLine_of_length_chunks_flatten (single : ∀ piece ∈ pieces, chunks piece = [piece])
    (lengthEq : (chunks pieces.flatten).length = pieces.length) :
    ∀ piece ∈ pieces.dropLast, EndsLine piece := by
  induction pieces with
  | nil => simp
  | cons piece pieces ih =>
      cases pieces with
      | nil => simp
      | cons next pieces =>
          have restSingle : ∀ other ∈ next :: pieces, chunks other = [other] :=
            fun other mem => single other (List.mem_cons_of_mem piece mem)
          have restLe := length_chunks_flatten_le restSingle
          have pieceLength : (chunks piece).length = 1 := by
            rw [single piece List.mem_cons_self, List.length_singleton]
          have restNonempty : (next :: pieces).flatten ≠ [] := by
            have nonempty := ne_nil_of_chunks_eq (restSingle next List.mem_cons_self)
            simp [nonempty]
          rw [List.flatten_cons, List.length_cons] at lengthEq
          have pieceEnds : EndsLine piece := by
            by_cases ends : EndsLine piece
            · exact ends
            · have joined := length_chunks_append_of_not_endsLine ends restNonempty
              omega
          rw [chunks_append_of_endsLine pieceEnds, List.length_append, pieceLength] at lengthEq
          have restEnds := ih restSingle (by omega)
          rw [List.dropLast_cons_cons]
          intro other mem
          rcases List.mem_cons.mp mem with rfl | restMem
          · exact pieceEnds
          · exact restEnds other restMem

end Sequences

end CaseHarness.Reader
