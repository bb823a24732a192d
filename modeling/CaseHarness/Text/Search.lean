/-!
# Finding a text in a text

Removal of a leading part, and the question whether one text occurs in another.
-/

namespace CaseHarness.Text

variable {α : Type} [DecidableEq α]

/-- What follows `opening`, if the text begins with it. -/
def after? : List α → List α → Option (List α)
  | [], marks => some marks
  | _ :: _, [] => none
  | wanted :: opening, mark :: marks =>
      if wanted = mark then after? opening marks else none

/-- Whether `part` stands somewhere in a text without gaps. -/
def occursIn (part : List α) : List α → Bool
  | [] => part.isEmpty
  | mark :: marks => (after? part (mark :: marks)).isSome || occursIn part marks

/-- Removing a leading part is the inverse of putting it in front. -/
theorem after?_eq_some_iff {opening marks rest : List α} :
    after? opening marks = some rest ↔ marks = opening ++ rest := by
  induction opening generalizing marks with
  | nil => simp [after?]
  | cons wanted opening ih =>
      cases marks with
      | nil => simp [after?]
      | cons mark marks =>
          by_cases same : wanted = mark
          · simp [after?, same, ih]
          · simp only [after?, same, if_false, reduceCtorEq, List.cons_append,
              List.cons.injEq, false_iff, not_and]
            exact fun equal => absurd equal.symm same

theorem isSome_after?_iff {opening marks : List α} :
    (after? opening marks).isSome = true ↔ opening <+: marks := by
  rw [Option.isSome_iff_exists]
  exact ⟨fun ⟨rest, found⟩ => ⟨rest, (after?_eq_some_iff.mp found).symm⟩,
    fun ⟨rest, equal⟩ => ⟨rest, after?_eq_some_iff.mpr equal.symm⟩⟩

/-- What begins in one way does not begin in another one. -/
theorem after?_eq_none_of_apart {opening other marks rest : List α}
    (apart : ¬ opening <+: other ∧ ¬ other <+: opening) (opened : after? other marks = some rest) :
    after? opening marks = none := by
  rw [after?_eq_some_iff] at opened
  rw [Option.eq_none_iff_forall_ne_some]
  intro back found
  rw [after?_eq_some_iff, opened] at found
  have starts : opening <+: other ++ rest := found ▸ List.prefix_append opening back
  rcases List.prefix_or_prefix_of_prefix starts (List.prefix_append other rest) with first | first
  · exact apart.1 first
  · exact apart.2 first

/-- The search finds exactly the infixes. -/
theorem occursIn_iff {part marks : List α} : occursIn part marks = true ↔ part <:+: marks := by
  induction marks with
  | nil => simp [occursIn]
  | cons mark marks ih =>
      rw [occursIn, Bool.or_eq_true, isSome_after?_iff, ih, List.infix_cons_iff]

end CaseHarness.Text
