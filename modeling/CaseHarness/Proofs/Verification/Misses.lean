import CaseHarness.Proofs.Verification.Placement

/-!
# Which checks are missed

The set of matched checks is defined without a scan: a check is matched if it can be
placed together with the matched checks before it.  The misses that are reported are
exactly the other checks.  The scan meets this definition because the lines it has
left behind any number of checks are those behind the earliest placement of the
matched ones among them.
-/

namespace CaseHarness.Verification

/-- The pattern with this index can be placed together with the matched ones before it. -/
def Matched (patterns lines : List String) (index : Nat) : Prop :=
  Placeable patterns lines
    (insert index {other | ∃ _ : other < index, Matched patterns lines other})
termination_by index

/-- The indices of the matched patterns before an index. -/
def matchedBefore (patterns lines : List String) (index : Nat) : Set Nat :=
  {other | other < index ∧ Matched patterns lines other}

variable {patterns lines : List String} {index : Nat}

theorem matched_iff_placeable :
    Matched patterns lines index ↔
      Placeable patterns lines (insert index (matchedBefore patterns lines index)) := by
  rw [Matched]
  simp only [matchedBefore, exists_prop]

theorem Matched.lt_length (matched : Matched patterns lines index) : index < patterns.length := by
  obtain ⟨place, placement⟩ := matched_iff_placeable.mp matched
  exact placement.lt_length (Set.mem_insert index _)

theorem matchedBefore_succ_of_matched (matched : Matched patterns lines index) :
    matchedBefore patterns lines (index + 1) =
      insert index (matchedBefore patterns lines index) := by
  ext other
  simp only [matchedBefore, Set.mem_ofPred_eq, Set.mem_insert_iff, Nat.lt_succ_iff_lt_or_eq]
  constructor
  · rintro ⟨less | rfl, otherMatched⟩
    · exact Or.inr ⟨less, otherMatched⟩
    · exact Or.inl rfl
  · rintro (rfl | ⟨less, otherMatched⟩)
    · exact ⟨Or.inr rfl, matched⟩
    · exact ⟨Or.inl less, otherMatched⟩

theorem matchedBefore_succ_of_not_matched (missed : ¬ Matched patterns lines index) :
    matchedBefore patterns lines (index + 1) = matchedBefore patterns lines index := by
  ext other
  simp only [matchedBefore, Set.mem_ofPred_eq, Nat.lt_succ_iff_lt_or_eq]
  constructor
  · rintro ⟨less | rfl, otherMatched⟩
    · exact ⟨less, otherMatched⟩
    · exact absurd otherMatched missed
  · rintro ⟨less, otherMatched⟩
    exact ⟨Or.inl less, otherMatched⟩

theorem matchedBefore_length :
    matchedBefore patterns lines patterns.length = {other | Matched patterns lines other} := by
  ext other
  exact ⟨And.right, fun matched => ⟨matched.lt_length, matched⟩⟩

/-- If the lines left are those behind an earliest placement of the matched patterns, the
next pattern is found exactly if it is matched. -/
theorem matched_iff_isSome {place : Nat → Nat} {cursor : Nat} {pattern : String}
    (earliest : Earliest patterns lines (matchedBefore patterns lines index) place cursor)
    (patternAt : patterns[index]? = some pattern) :
    Matched patterns lines index ↔
      (remainingAfter? pattern (lines.drop cursor)).isSome = true := by
  rw [matched_iff_placeable, isSome_remainingAfter?_drop_iff]
  exact earliest.placeable_insert_iff (fun other mem => mem.1) patternAt

/-- The lines left behind any number of patterns are those behind the earliest placement
of the matched ones among them. -/
theorem exists_earliest_matchedBefore (lines : List String) (bound : index ≤ patterns.length) :
    ∃ place cursor, linesAfter (patterns.take index) lines = lines.drop cursor ∧
      Earliest patterns lines (matchedBefore patterns lines index) place cursor := by
  induction index with
  | zero =>
      have none_before : matchedBefore patterns lines 0 = ∅ := by
        ext other
        simp [matchedBefore]
      refine ⟨id, 0, rfl, ?_⟩
      rw [none_before]
      exact Earliest.empty id
  | succ index ih =>
      obtain ⟨place, cursor, left, earliest⟩ := ih (by omega)
      have patternAt : patterns[index]? = some patterns[index] := List.getElem?_eq_getElem bound
      have nextLeft : linesAfter (patterns.take (index + 1)) lines =
          (remainingAfter? patterns[index] (lines.drop cursor)).getD (lines.drop cursor) := by
        rw [List.take_succ_eq_append_getElem bound, linesAfter_append, left]
        rfl
      have matchedIff := matched_iff_isSome earliest patternAt
      cases found : remainingAfter? patterns[index] (lines.drop cursor) with
      | none =>
          have missed : ¬ Matched patterns lines index := by simp [matchedIff, found]
          refine ⟨place, cursor, by rw [nextLeft, found]; rfl, ?_⟩
          rw [matchedBefore_succ_of_not_matched missed]
          exact earliest
      | some rest =>
          have matched : Matched patterns lines index := by simp [matchedIff, found]
          obtain ⟨hit, behind, holds, restEq, first⟩ := remainingAfter?_drop_eq_some found
          refine ⟨Function.update place index hit, hit + 1,
            by rw [nextLeft, found, restEq]; rfl, ?_⟩
          rw [matchedBefore_succ_of_matched matched]
          exact earliest.extend (fun other mem => mem.1) patternAt behind holds first

/-- A pattern is matched exactly if the scan finds it on the lines that the patterns
before it leave. -/
theorem matched_iff_found {pattern : String} (patternAt : patterns[index]? = some pattern) :
    Matched patterns lines index ↔
      (remainingAfter? pattern (linesAfter (patterns.take index) lines)).isSome = true := by
  have bound : index < patterns.length := (List.getElem?_eq_some_iff.mp patternAt).1
  obtain ⟨place, cursor, left, earliest⟩ := exists_earliest_matchedBefore lines bound.le
  rw [left]
  exact matched_iff_isSome earliest patternAt

instance (patterns lines : List String) (index : Nat) :
    Decidable (Matched patterns lines index) :=
  match patternAt : patterns[index]? with
  | some _ => decidable_of_iff _ (matched_iff_found patternAt).symm
  | none => isFalse fun matched =>
      absurd matched.lt_length (List.getElem?_eq_none_iff.mp patternAt).not_gt

/-- The scan for checks reports those that are not matched, each with its index. -/
theorem misses_eq_filter_from (before checks : List Check) (lines : List String)
    (patternsEq : patterns = (before ++ checks).map Check.pattern) :
    misses checks (linesAfter (before.map Check.pattern) lines) =
      ((checks.zipIdx before.length).filter fun entry => ¬ Matched patterns lines entry.2).map
        fun entry => .checkNotFound entry.1.line entry.1.pattern := by
  induction checks generalizing before with
  | nil => rfl
  | cons check checks ih =>
      have patternAt : patterns[before.length]? = some check.pattern := by simp [patternsEq]
      have takeEq : patterns.take before.length = before.map Check.pattern := by
        simp [patternsEq]
      have matchedIff : Matched patterns lines before.length ↔
          (remainingAfter? check.pattern
            (linesAfter (before.map Check.pattern) lines)).isSome = true := by
        rw [matched_iff_found patternAt, takeEq]
      have rest := ih (before ++ [check]) (by simpa using patternsEq)
      rw [List.map_append, linesAfter_append, List.length_append] at rest
      rw [List.zipIdx_cons]
      cases found : remainingAfter? check.pattern
          (linesAfter (before.map Check.pattern) lines) with
      | none =>
          have missed : ¬ Matched patterns lines before.length := by simp [matchedIff, found]
          simp only [List.map_cons, List.map_nil, linesAfter, found, Option.getD_none,
            List.length_cons, List.length_nil] at rest
          simp [misses, found, missed, rest]
      | some left =>
          have matched : Matched patterns lines before.length := by simp [matchedIff, found]
          simp only [List.map_cons, List.map_nil, linesAfter, found, Option.getD_some,
            List.length_cons, List.length_nil] at rest
          simp [misses, found, matched, rest]

/-- A pattern that is missed has no influence on the ones behind it. -/
theorem matched_without_miss {before later : List String} {missing : String}
    (missed : ¬ Matched (before ++ missing :: later) lines before.length) (index : Nat) :
    Matched (before ++ missing :: later) lines (before.length + 1 + index) ↔
      Matched (before ++ later) lines (before.length + index) := by
  have passed : remainingAfter? missing (linesAfter before lines) = none := by
    have missingAt : (before ++ missing :: later)[before.length]? = some missing := by simp
    rw [matched_iff_found missingAt] at missed
    simpa using missed
  cases patternAt : later[index]? with
  | none =>
      have beyond : later.length ≤ index := List.getElem?_eq_none_iff.mp patternAt
      have missedWith :
          ¬ Matched (before ++ missing :: later) lines (before.length + 1 + index) := by
        intro matched
        have bound := matched.lt_length
        simp only [List.length_append, List.length_cons] at bound
        omega
      have missedWithout : ¬ Matched (before ++ later) lines (before.length + index) := by
        intro matched
        have bound := matched.lt_length
        simp only [List.length_append] at bound
        omega
      exact iff_of_false missedWith missedWithout
  | some pattern =>
      have patternWith :
          (before ++ missing :: later)[before.length + 1 + index]? = some pattern := by
        rw [Nat.add_assoc, List.getElem?_append_right (Nat.le_add_right _ _),
          Nat.add_sub_cancel_left, Nat.add_comm 1, List.getElem?_cons_succ, patternAt]
      have patternWithout : (before ++ later)[before.length + index]? = some pattern := by
        rw [List.getElem?_append_right (Nat.le_add_right _ _), Nat.add_sub_cancel_left, patternAt]
      have takeWith : (before ++ missing :: later).take (before.length + 1 + index) =
          before ++ missing :: later.take index := by
        rw [Nat.add_assoc, List.take_length_add_append, Nat.add_comm 1, List.take_succ_cons]
      rw [matched_iff_found patternWith, matched_iff_found patternWithout, takeWith,
        List.take_length_add_append, linesAfter_append, linesAfter_append]
      simp only [linesAfter, passed, Option.getD_none]

/-- All matched patterns have one placement together that is the earliest for each. -/
theorem exists_least_placement (patterns lines : List String) :
    ∃ place, Placement patterns lines {index | Matched patterns lines index} place ∧
      ∀ other, Placement patterns lines {index | Matched patterns lines index} other →
        ∀ index, Matched patterns lines index → place index ≤ other index := by
  obtain ⟨place, cursor, -, earliest⟩ :=
    exists_earliest_matchedBefore lines (le_refl patterns.length)
  rw [matchedBefore_length] at earliest
  exact ⟨place, earliest.placement, earliest.least⟩

/-- The misses of a scan are the checks that are not matched, in file order and each once.
The matched checks stand on different lines, all at once and each as early as in any
other placement, and a miss has no influence on the checks behind it. -/
theorem misses_eq_unmatched (checks : List Check) (lines : List String) :
    misses checks lines =
        (checks.zipIdx.filter fun entry =>
          ¬ Matched (checks.map Check.pattern) lines entry.2).map
          (fun entry => .checkNotFound entry.1.line entry.1.pattern) ∧
      (∃ place,
        Placement (checks.map Check.pattern) lines
          {index | Matched (checks.map Check.pattern) lines index} place ∧
        ∀ other,
          Placement (checks.map Check.pattern) lines
            {index | Matched (checks.map Check.pattern) lines index} other →
          ∀ index, Matched (checks.map Check.pattern) lines index → place index ≤ other index) ∧
      ∀ before missing later, checks = before ++ missing :: later →
        ¬ Matched (checks.map Check.pattern) lines before.length →
        ∀ index,
          Matched (checks.map Check.pattern) lines (before.length + 1 + index) ↔
            Matched ((before ++ later).map Check.pattern) lines (before.length + index) := by
  refine ⟨misses_eq_filter_from [] checks lines rfl, exists_least_placement _ lines, ?_⟩
  intro before missing later checksEq missed index
  subst checksEq
  have lengthEq : (before.map Check.pattern).length = before.length := List.length_map _
  rw [List.map_append, List.map_cons, ← lengthEq] at missed ⊢
  rw [List.map_append]
  exact matched_without_miss missed index

/-- A second check takes no line that an earlier one has taken. -/
example : misses [⟨1, "a"⟩, ⟨2, "a"⟩, ⟨3, "b"⟩] ["b", "a", "ab"] =
    [.checkNotFound 3 "b"] := by
  decide

end CaseHarness.Verification
