import CaseHarness.Verification
import Mathlib.Data.Set.Insert
import Mathlib.Logic.Function.Basic
import Mathlib.Data.Set.Monotone

/-!
# Placements of patterns in lines

A placement assigns patterns to lines of the output: each pattern to a line that
contains it, and later patterns to later lines.  The scan for checks keeps no
placement, only the lines it has not passed.  This file shows what those lines
stand for: the scan has passed exactly the lines up to the least end of all
placements of the patterns found so far.  Taking the first line that contains a
pattern therefore never costs a later pattern its line.
-/

namespace CaseHarness.Verification

/-- The line at a position contains a pattern. -/
def LineHolds (lines : List String) (position : Nat) (pattern : String) : Prop :=
  ∃ line, lines[position]? = some line ∧ pattern.toList <:+: line.toList

/-- An assignment of the chosen patterns to lines: later patterns stand on later
lines, and each line contains its pattern. -/
structure Placement (patterns lines : List String) (chosen : Set Nat)
    (place : Nat → Nat) : Prop where
  increasing : StrictMonoOn place chosen
  contained : ∀ index ∈ chosen, ∃ pattern, patterns[index]? = some pattern ∧
    LineHolds lines (place index) pattern

/-- The chosen patterns can be assigned to lines. -/
def Placeable (patterns lines : List String) (chosen : Set Nat) : Prop :=
  ∃ place, Placement patterns lines chosen place

/-- A placement of the chosen patterns that ends before the cursor and is the first
in every respect: no other one has a pattern earlier, and none ends earlier. -/
structure Earliest (patterns lines : List String) (chosen : Set Nat)
    (place : Nat → Nat) (cursor : Nat) : Prop where
  placement : Placement patterns lines chosen place
  ends : ∀ index ∈ chosen, place index < cursor
  least : ∀ other, Placement patterns lines chosen other →
    ∀ index ∈ chosen, place index ≤ other index
  leastEnd : ∀ other, Placement patterns lines chosen other →
    ∀ bound, (∀ index ∈ chosen, other index < bound) → cursor ≤ bound

/-- The lines that are left when patterns have been looked for in turn; a pattern that
is not found leaves them all. -/
def linesAfter : List String → List String → List String
  | [], lines => lines
  | pattern :: patterns, lines =>
      linesAfter patterns ((remainingAfter? pattern lines).getD lines)

section Lines

variable {lines rest : List String} {pattern : String} {cursor : Nat}

theorem lineHolds_zero_cons {line : String} :
    LineHolds (line :: lines) 0 pattern ↔ pattern.toList <:+: line.toList := by
  simp [LineHolds]

theorem lineHolds_succ_cons {line : String} {position : Nat} :
    LineHolds (line :: lines) (position + 1) pattern ↔ LineHolds lines position pattern := by
  simp [LineHolds]

theorem lineHolds_drop {position : Nat} :
    LineHolds (lines.drop cursor) position pattern ↔
      LineHolds lines (cursor + position) pattern := by
  simp [LineHolds, List.getElem?_drop]

/-- A pattern that is found is found on the first line that contains it. -/
theorem remainingAfter?_eq_some (found : remainingAfter? pattern lines = some rest) :
    ∃ hit, LineHolds lines hit pattern ∧ rest = lines.drop (hit + 1) ∧
      ∀ other, LineHolds lines other pattern → hit ≤ other := by
  induction lines with
  | nil => simp [remainingAfter?] at found
  | cons line lines ih =>
      unfold remainingAfter? at found
      split at found
      · next occurs =>
        cases found
        exact ⟨0, lineHolds_zero_cons.mpr (Text.occursIn_iff.mp occurs), rfl,
          fun other _ => Nat.zero_le other⟩
      · next absent =>
        obtain ⟨hit, holds, restEq, first⟩ := ih found
        refine ⟨hit + 1, lineHolds_succ_cons.mpr holds, restEq, ?_⟩
        intro other otherHolds
        cases other with
        | zero => exact absurd (Text.occursIn_iff.mpr (lineHolds_zero_cons.mp otherHolds)) absent
        | succ other =>
            exact Nat.succ_le_succ (first other (lineHolds_succ_cons.mp otherHolds))

theorem remainingAfter?_eq_none (missed : remainingAfter? pattern lines = none)
    (position : Nat) : ¬ LineHolds lines position pattern := by
  induction lines generalizing position with
  | nil => simp [LineHolds]
  | cons line lines ih =>
      unfold remainingAfter? at missed
      split at missed
      · cases missed
      · next absent =>
        cases position with
        | zero => exact fun holds => absent (Text.occursIn_iff.mpr (lineHolds_zero_cons.mp holds))
        | succ position => exact fun holds => ih missed position (lineHolds_succ_cons.mp holds)

/-- Looking behind a cursor finds the first line there that contains the pattern. -/
theorem remainingAfter?_drop_eq_some
    (found : remainingAfter? pattern (lines.drop cursor) = some rest) :
    ∃ hit, cursor ≤ hit ∧ LineHolds lines hit pattern ∧ rest = lines.drop (hit + 1) ∧
      ∀ other, cursor ≤ other → LineHolds lines other pattern → hit ≤ other := by
  obtain ⟨offset, holds, restEq, first⟩ := remainingAfter?_eq_some found
  refine ⟨cursor + offset, Nat.le_add_right cursor offset, lineHolds_drop.mp holds, ?_, ?_⟩
  · rw [restEq, List.drop_drop]
    rfl
  · intro other behind otherHolds
    have shifted : LineHolds (lines.drop cursor) (other - cursor) pattern := by
      rw [lineHolds_drop, Nat.add_sub_cancel' behind]
      exact otherHolds
    have offsetLe := first (other - cursor) shifted
    omega

/-- The search behind a cursor fails exactly if no line there contains the pattern. -/
theorem isSome_remainingAfter?_drop_iff :
    (remainingAfter? pattern (lines.drop cursor)).isSome = true ↔
      ∃ position, cursor ≤ position ∧ LineHolds lines position pattern := by
  constructor
  · intro found
    obtain ⟨rest, restEq⟩ := Option.isSome_iff_exists.mp found
    obtain ⟨hit, behind, holds, -⟩ := remainingAfter?_drop_eq_some restEq
    exact ⟨hit, behind, holds⟩
  · rintro ⟨position, behind, holds⟩
    by_contra missed
    have missedEq := Option.not_isSome_iff_eq_none.mp missed
    apply remainingAfter?_eq_none missedEq (position - cursor)
    rw [lineHolds_drop, Nat.add_sub_cancel' behind]
    exact holds

end Lines

section Placements

variable {patterns lines : List String} {chosen fewer : Set Nat} {place : Nat → Nat}

theorem Placement.mono (placement : Placement patterns lines chosen place)
    (subset : fewer ⊆ chosen) : Placement patterns lines fewer place where
  increasing := StrictMonoOn.mono placement.increasing subset
  contained index mem := placement.contained index (subset mem)

theorem Placeable.mono (placeable : Placeable patterns lines chosen)
    (subset : fewer ⊆ chosen) : Placeable patterns lines fewer := by
  obtain ⟨place, placement⟩ := placeable
  exact ⟨place, placement.mono subset⟩

theorem Placement.lt_length (placement : Placement patterns lines chosen place)
    {index : Nat} (mem : index ∈ chosen) : index < patterns.length := by
  obtain ⟨pattern, patternAt, -⟩ := placement.contained index mem
  exact (List.getElem?_eq_some_iff.mp patternAt).1

variable {index cursor : Nat}

/-- In a placement of one further, later pattern all others stand before it. -/
theorem Placement.lt_of_insert (placement : Placement patterns lines (insert index chosen) place)
    (below : ∀ other ∈ chosen, other < index) : ∀ other ∈ chosen, place other < place index :=
  fun other mem =>
    placement.increasing (Set.mem_insert_of_mem index mem) (Set.mem_insert index chosen)
      (below other mem)

/-- A pattern that stands on a line behind a placement can be added to it there. -/
theorem Placement.extend {pattern : String} {position : Nat}
    (placement : Placement patterns lines chosen place)
    (below : ∀ other ∈ chosen, other < index) (ends : ∀ other ∈ chosen, place other < position)
    (patternAt : patterns[index]? = some pattern) (holds : LineHolds lines position pattern) :
    Placement patterns lines (insert index chosen) (Function.update place index position) := by
  have kept : ∀ other ∈ chosen, Function.update place index position other = place other :=
    fun other mem => Function.update_of_ne (below other mem).ne position place
  constructor
  · rintro first (rfl | firstMem) second (rfl | secondMem) less
    · exact absurd less (lt_irrefl _)
    · exact absurd (below second secondMem) less.not_gt
    · rw [kept first firstMem, Function.update_self]
      exact ends first firstMem
    · rw [kept first firstMem, kept second secondMem]
      exact placement.increasing firstMem secondMem less
  · rintro other (rfl | mem)
    · refine ⟨pattern, patternAt, ?_⟩
      rw [Function.update_self]
      exact holds
    · rw [kept other mem]
      exact placement.contained other mem

theorem Earliest.empty (place : Nat → Nat) : Earliest patterns lines ∅ place 0 where
  placement := ⟨fun _ mem => absurd mem (Set.notMem_empty _),
    fun _ mem => absurd mem (Set.notMem_empty _)⟩
  ends _ mem := absurd mem (Set.notMem_empty _)
  least _ _ _ mem := absurd mem (Set.notMem_empty _)
  leastEnd _ _ bound _ := Nat.zero_le bound

/-- A further, later pattern can be placed together with the chosen ones exactly if some
line at or behind the cursor contains it. -/
theorem Earliest.placeable_insert_iff {pattern : String}
    (earliest : Earliest patterns lines chosen place cursor)
    (below : ∀ other ∈ chosen, other < index) (patternAt : patterns[index]? = some pattern) :
    Placeable patterns lines (insert index chosen) ↔
      ∃ position, cursor ≤ position ∧ LineHolds lines position pattern := by
  constructor
  · rintro ⟨other, placement⟩
    obtain ⟨found, foundAt, holds⟩ := placement.contained index (Set.mem_insert index chosen)
    have samePattern : found = pattern := Option.some.inj (foundAt.symm.trans patternAt)
    subst samePattern
    refine ⟨other index, ?_, holds⟩
    exact earliest.leastEnd other (placement.mono (Set.subset_insert index chosen)) _
      (placement.lt_of_insert below)
  · rintro ⟨position, behind, holds⟩
    exact ⟨_, earliest.placement.extend below
      (fun other mem => (earliest.ends other mem).trans_le behind) patternAt holds⟩

/-- The first line at or behind the cursor that contains a further, later pattern extends
the earliest placement to the earliest one. -/
theorem Earliest.extend {pattern : String} {hit : Nat}
    (earliest : Earliest patterns lines chosen place cursor)
    (below : ∀ other ∈ chosen, other < index) (patternAt : patterns[index]? = some pattern)
    (behind : cursor ≤ hit) (holds : LineHolds lines hit pattern)
    (first : ∀ other, cursor ≤ other → LineHolds lines other pattern → hit ≤ other) :
    Earliest patterns lines (insert index chosen) (Function.update place index hit) (hit + 1) := by
  have kept : ∀ other ∈ chosen, Function.update place index hit other = place other :=
    fun other mem => Function.update_of_ne (below other mem).ne hit place
  -- Every placement ends its chosen part at or behind the cursor, hence has the new
  -- pattern at `hit` or behind.
  have hit_le : ∀ other, Placement patterns lines (insert index chosen) other →
      hit ≤ other index := by
    intro other placement
    obtain ⟨found, foundAt, foundHolds⟩ :=
      placement.contained index (Set.mem_insert index chosen)
    have samePattern : found = pattern := Option.some.inj (foundAt.symm.trans patternAt)
    subst samePattern
    exact first (other index)
      (earliest.leastEnd other (placement.mono (Set.subset_insert index chosen)) _
        (placement.lt_of_insert below)) foundHolds
  constructor
  · exact earliest.placement.extend below
      (fun other mem => (earliest.ends other mem).trans_le behind) patternAt holds
  · rintro other (rfl | mem)
    · rw [Function.update_self]
      exact Nat.lt_succ_self hit
    · rw [kept other mem]
      have := earliest.ends other mem
      omega
  · rintro other placement position (rfl | mem)
    · rw [Function.update_self]
      exact hit_le other placement
    · rw [kept position mem]
      exact earliest.least other (placement.mono (Set.subset_insert index chosen)) position mem
  · intro other placement bound bounded
    have hitLe := hit_le other placement
    have indexBound := bounded index (Set.mem_insert index chosen)
    omega

end Placements

theorem linesAfter_append (first second lines : List String) :
    linesAfter (first ++ second) lines = linesAfter second (linesAfter first lines) := by
  induction first generalizing lines with
  | nil => rfl
  | cons pattern first ih => exact ih _

end CaseHarness.Verification
