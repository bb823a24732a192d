import CaseHarness.Process.Capture
import Mathlib.Data.List.NodupEquivFin

/-!
# Merging two streams

A sequence merges one sequence for each stream if its members can be tagged with the
streams so that the members of each stream are, in order, the sequence of that stream.
-/

namespace CaseHarness

/-- The stream beside a stream. -/
def Stream.other : Stream → Stream
  | output => errors
  | errors => output

theorem Stream.eq_or_eq_other (source stream : Stream) :
    source = stream ∨ source = stream.other := by
  cases source <;> cases stream <;> simp [other]

variable {α β : Type} {parts : Stream → List α} {whole : List α}

/-- A sequence consists of the members of the two streams' sequences, those of each
stream in their order. -/
def Merges (parts : Stream → List α) (whole : List α) : Prop :=
  ∃ tagged : List (Stream × α), tagged.map Prod.snd = whole ∧
    ∀ stream, (tagged.filter fun entry => entry.1 = stream).map Prod.snd = parts stream

theorem merges_of_tagged (tagged : List (Stream × α)) :
    Merges (fun stream => (tagged.filter fun entry => entry.1 = stream).map Prod.snd)
      (tagged.map Prod.snd) :=
  ⟨tagged, rfl, fun _ => rfl⟩

/-- Tagged members are determined by their tags and by the members of each stream. -/
theorem eq_of_tags_eq {first second : List (Stream × α)}
    (tagsEq : first.map Prod.fst = second.map Prod.fst)
    (membersEq : ∀ stream, (first.filter fun entry => entry.1 = stream).map Prod.snd =
      (second.filter fun entry => entry.1 = stream).map Prod.snd) : first = second := by
  induction first generalizing second with
  | nil => simpa using tagsEq.symm
  | cons entry first ih =>
      obtain ⟨tag, member⟩ := entry
      cases second with
      | nil => simp at tagsEq
      | cons otherEntry second =>
          obtain ⟨otherTag, otherMember⟩ := otherEntry
          simp only [List.map_cons, List.cons.injEq] at tagsEq
          obtain ⟨rfl, restTags⟩ := tagsEq
          have own := membersEq tag
          simp only [List.filter_cons, decide_true, if_true, List.map_cons, List.cons.injEq] at own
          obtain ⟨rfl, ownRest⟩ := own
          have restEq : first = second := by
            refine ih restTags fun stream => ?_
            by_cases same : tag = stream
            · exact same ▸ ownRest
            · simpa [List.filter_cons, same] using membersEq stream
          rw [restEq]

namespace Merges

/-- What is merged with nothing is left as it is. -/
theorem eq_part (merges : Merges parts whole) {stream : Stream}
    (nothing : parts stream.other = []) : whole = parts stream := by
  obtain ⟨tagged, rfl, partsEq⟩ := merges
  have noOther : tagged.filter (fun entry => entry.1 = stream.other) = [] := by
    rw [← List.map_eq_nil_iff, partsEq, nothing]
  have all : tagged.filter (fun entry => entry.1 = stream) = tagged := by
    rw [List.filter_eq_self]
    intro entry mem
    have notOther : entry.1 ≠ stream.other := by
      simpa using List.filter_eq_nil_iff.mp noOther entry mem
    simpa using (entry.1.eq_or_eq_other stream).resolve_right notOther
  rw [← partsEq, all]

theorem map (merges : Merges parts whole) (image : α → β) :
    Merges (fun stream => (parts stream).map image) (whole.map image) := by
  obtain ⟨tagged, rfl, partsEq⟩ := merges
  refine ⟨tagged.map fun entry => (entry.1, image entry.2), by simp, ?_⟩
  intro stream
  simp only [← partsEq, List.filter_map, List.map_map]
  rfl

theorem flatten {parts : Stream → List (List α)} {whole : List (List α)}
    (merges : Merges parts whole) :
    Merges (fun stream => (parts stream).flatten) whole.flatten := by
  obtain ⟨tagged, rfl, partsEq⟩ := merges
  refine ⟨tagged.flatMap fun entry => entry.2.map fun member => (entry.1, member), ?_, ?_⟩
  · simp [List.flatMap_def, Function.comp_def]
  · intro stream
    simp only [← partsEq]
    clear partsEq
    induction tagged with
    | nil => rfl
    | cons entry tagged ih =>
        obtain ⟨source, piece⟩ := entry
        by_cases same : source = stream
        · simp only [List.flatMap_cons, List.filter_append, List.map_append, ih]
          simp [same, List.filter_map, Function.comp_def]
        · simp only [List.flatMap_cons, List.filter_append, List.map_append, ih]
          simp [same, List.filter_map, Function.comp_def]

private theorem length_filter_streams (tagged : List (Stream × α)) :
    tagged.length = (tagged.filter fun entry => entry.1 = Stream.output).length +
      (tagged.filter fun entry => entry.1 = Stream.errors).length := by
  induction tagged with
  | nil => rfl
  | cons entry tagged ih =>
      obtain ⟨source, member⟩ := entry
      cases source with
      | output =>
          simp only [List.filter_cons, List.length_cons, ih]
          simp
          omega
      | errors =>
          simp only [List.filter_cons, List.length_cons, ih]
          simp
          omega

theorem length_eq (merges : Merges parts whole) :
    whole.length = (parts .output).length + (parts .errors).length := by
  obtain ⟨tagged, rfl, partsEq⟩ := merges
  rw [← partsEq .output, ← partsEq .errors, List.length_map, List.length_map, List.length_map]
  exact length_filter_streams tagged

/-- Every member of a stream has a place of its own in the merge. -/
theorem exists_places (merges : Merges parts whole) :
    ∃ place : Stream → Nat → Nat,
      (∀ stream index member, (parts stream)[index]? = some member →
        whole[place stream index]? = some member) ∧
      ∀ first second firstIndex secondIndex, firstIndex < (parts first).length →
        secondIndex < (parts second).length →
        place first firstIndex = place second secondIndex →
        first = second ∧ firstIndex = secondIndex := by
  obtain ⟨tagged, rfl, partsEq⟩ := merges
  choose place placeEq using fun stream : Stream =>
    List.sublist_iff_exists_orderEmbedding_getElem?_eq.mp
      (List.filter_sublist (p := fun entry : Stream × α => decide (entry.1 = stream))
        (l := tagged))
  have entryAt : ∀ stream index member, (parts stream)[index]? = some member →
      tagged[place stream index]? = some (stream, member) := by
    intro stream index member memberAt
    rw [← partsEq stream, List.getElem?_map, Option.map_eq_some_iff] at memberAt
    obtain ⟨⟨source, found⟩, entryEq, rfl⟩ := memberAt
    have kept := List.mem_of_getElem? entryEq
    have same : source = stream := by simpa using (List.mem_filter.mp kept).2
    rw [← placeEq, entryEq, same]
  refine ⟨fun stream index => place stream index, ?_, ?_⟩
  · intro stream index member memberAt
    rw [List.getElem?_map, entryAt stream index member memberAt]
    rfl
  · intro first second firstIndex secondIndex firstBound secondBound samePlace
    change place first firstIndex = place second secondIndex at samePlace
    have firstEntry := entryAt first firstIndex _ (List.getElem?_eq_getElem firstBound)
    have secondEntry := entryAt second secondIndex _ (List.getElem?_eq_getElem secondBound)
    rw [samePlace, secondEntry, Option.some.injEq, Prod.mk.injEq] at firstEntry
    obtain ⟨sameStream, -⟩ := firstEntry
    subst sameStream
    exact ⟨rfl, (place second).injective samePlace⟩

end Merges

end CaseHarness
