import CaseHarness.Proofs.Run.Course
import CaseHarness.Proofs.Run.OneLanguage

/-!
# The chosen language

A request is served by the tag that it names, else by the first tag of the same primary
language, else in English.  Tags that are available serve themselves, so with English among
them serving a request twice changes nothing.  Every tag that is put in force is the answer to
a request, and therefore its messages are found in a catalogue at once: a tag is never
shortened while a run speaks.
-/

namespace CaseHarness

namespace Language

variable {available before after : List String} {requested tag : String} {text part : List Char}

/-- A text begins with a part that reaches up to the first of some marks, or to its end. -/
def FirstPart (marks text part : List Char) : Prop :=
  (∀ character ∈ part, character ∉ marks) ∧
    ∃ rest, text = part ++ rest ∧ ∀ mark, rest.head? = some mark → mark ∈ marks

/-- What stands in front of the first hyphen of a tag stands in front of the first hyphen or
underscore of a request. -/
def SameLanguage (requested tag : String) : Prop :=
  ∃ part, FirstPart ['-'] tag.toList part ∧ FirstPart ['-', '_'] requested.toList part

/-- The tag that serves a request among those that are available, or English. -/
inductive Serves (available : List String) (requested : String) : String → Prop
  | itself (found : requested ∈ available) : Serves available requested requested
  | related {before after : List String} {tag : String} (unavailable : requested ∉ available)
      (availableEq : available = before ++ tag :: after) (same : SameLanguage requested tag)
      (first : ∀ earlier ∈ before, ¬ SameLanguage requested earlier) :
      Serves available requested tag
  | unserved (unavailable : requested ∉ available)
      (foreign : ∀ tag ∈ available, ¬ SameLanguage requested tag) :
      Serves available requested "en"

/-- A tag is that of a catalogue, and each message has the text of this catalogue while the
tag is in force. -/
def FoundDirectly (tag : String) : Prop :=
  ∃ language, ofTag? tag = some language ∧
    ∀ message : Message, message.text tag = language.render message

theorem firstPart_iff {marks : List Char} :
    FirstPart marks text part ↔ text.takeWhile (fun character => character ∉ marks) = part := by
  constructor
  · rintro ⟨clean, rest, rfl, stops⟩
    have passed : ∀ character ∈ part, decide (character ∉ marks) = true :=
      fun character mem => decide_eq_true (clean character mem)
    rw [List.takeWhile_append_of_pos passed]
    cases rest with
    | nil => simp
    | cons mark rest => simp [stops mark rfl]
  · rintro rfl
    have clean : ∀ character ∈ text.takeWhile (fun character => decide (character ∉ marks)),
        character ∉ marks := fun character mem => by simpa using List.mem_takeWhile_imp mem
    refine ⟨clean, text.dropWhile (fun character => character ∉ marks),
      (List.takeWhile_append_dropWhile ..).symm, ?_⟩
    intro mark headEq
    have stops := List.head?_dropWhile_not (fun character => decide (character ∉ marks)) text
    rw [headEq] at stops
    simpa using stops

theorem sameLanguage_iff :
    SameLanguage requested tag ↔ primary tag = requestedPrimary requested := by
  have requestedEq : requestedPrimary requested =
      requested.toList.takeWhile fun character => character ∉ ['-', '_'] := by
    simp [requestedPrimary]
  have tagEq : primary tag = tag.toList.takeWhile fun character => character ∉ ['-'] := by
    simp [primary]
  simp only [SameLanguage, firstPart_iff, requestedEq, tagEq]
  constructor
  · rintro ⟨part, rfl, same⟩
    exact same.symm
  · intro same
    exact ⟨_, rfl, same.symm⟩

/-- A request is resolved to the tag that serves it, and to no other. -/
theorem resolveAmong_eq_iff : resolveAmong available requested = tag ↔
    Serves available requested tag := by
  constructor
  · rintro rfl
    unfold resolveAmong
    split
    · next found => exact .itself found
    · next unavailable =>
      cases search : available.find? fun tag => primary tag = requestedPrimary requested with
      | none =>
          refine .unserved unavailable fun tag mem same => ?_
          exact List.find?_eq_none.mp search tag mem (decide_eq_true (sameLanguage_iff.mp same))
      | some tag =>
          obtain ⟨same, before, after, availableEq, first⟩ :=
            List.find?_eq_some_iff_append.mp search
          have shares := sameLanguage_iff.mpr (of_decide_eq_true same)
          refine .related unavailable availableEq shares fun earlier mem shared => ?_
          have differs := first earlier mem
          simp [sameLanguage_iff.mp shared] at differs
  · intro serves
    unfold resolveAmong
    cases serves with
    | itself found => rw [if_pos found]
    | @related before after _ unavailable availableEq same first =>
        have search : available.find? (fun tag => primary tag = requestedPrimary requested) =
            some tag := by
          refine List.find?_eq_some_iff_append.mpr ⟨decide_eq_true (sameLanguage_iff.mp same),
            before, after, availableEq, fun earlier mem => ?_⟩
          simpa [← sameLanguage_iff] using first earlier mem
        rw [if_neg unavailable, search]
        rfl
    | unserved unavailable foreign =>
        have search : available.find? (fun tag => primary tag = requestedPrimary requested) =
            none := by
          refine List.find?_eq_none.mpr fun tag mem => ?_
          simpa [← sameLanguage_iff] using foreign tag mem
        rw [if_neg unavailable, search]
        rfl

theorem resolveAmong_mem (english : fallbackTag ∈ available) (requested : String) :
    resolveAmong available requested ∈ available := by
  have serves := resolveAmong_eq_iff.mp (rfl : resolveAmong available requested = _)
  generalize resolveAmong available requested = tag at serves
  cases serves with
  | itself found => exact found
  | related _ availableEq => simp [availableEq]
  | unserved => exact english

theorem resolveAmong_of_mem (available : requested ∈ before) :
    resolveAmong before requested = requested :=
  if_pos available

theorem foundDirectly_tag (language : Language) : FoundDirectly language.tag := by
  refine ⟨language, by cases language <;> decide, fun message => ?_⟩
  rw [Message.text, lookup_tag]

theorem foundDirectly_resolve (requested : String) : FoundDirectly (resolve requested) := by
  obtain ⟨language, tagEq⟩ := exists_tag_eq_resolve requested
  rw [← tagEq]
  exact foundDirectly_tag language

theorem foundDirectly_detect (environment : Environment) : FoundDirectly environment.detect :=
  foundDirectly_resolve _

theorem foundDirectly_answerTag (environment : Environment) (words : List String) :
    FoundDirectly (CommandLine.answerTag environment words) := by
  unfold CommandLine.answerTag
  split
  · exact foundDirectly_resolve _
  · exact foundDirectly_detect environment

end Language

/-- The tag that a piece is rendered in. -/
def Console.Piece.tag? : Console.Piece → Option String
  | message _ tag _ => some tag
  | output _ | emptyLine => none

/-- The tags that the messages of an action are rendered in. -/
def Action.tags : Action → List String
  | printed pieces => pieces.filterMap Console.Piece.tag?
  | gaveUp _ tag => [tag]
  | answered _ | started _ | reported .. => []

namespace Console

variable {tag other : String} {piece : Piece}

theorem eq_of_tag?_header {line directory : String} {limit : Option Duration}
    (mem : piece ∈ header tag line directory limit) (tagged : piece.tag? = some other) :
    other = tag := by
  simp only [header, List.mem_append, List.mem_cons, List.mem_map, List.not_mem_nil,
    or_false] at mem
  rcases mem with (rfl | rfl) | ⟨duration, -, rfl⟩
  all_goals exact (Option.some.inj tagged).symm

theorem eq_of_tag?_outcome {name output : String} {outcome : Outcome}
    (mem : piece ∈ Console.outcome tag name output outcome) (tagged : piece.tag? = some other) :
    other = tag := by
  rcases List.mem_append.mp mem with failed | summed
  · obtain ⟨failure, -, pieceMem⟩ := List.mem_flatMap.mp failed
    rcases List.mem_cons.mp pieceMem with rfl | echoed
    · exact (Option.some.inj tagged).symm
    · split at echoed
      · simp only [List.mem_cons, List.not_mem_nil, or_false] at echoed
        rcases echoed with rfl | rfl <;> cases tagged
      · cases echoed
  · rw [List.mem_singleton.mp summed] at tagged
    unfold summary at tagged
    split at tagged
    all_goals exact (Option.some.inj tagged).symm

end Console

namespace Plan

variable {plan : Plan} {case : TestCase} {tag : String} {action : Action}

theorem eq_of_mem_tags_heading (mem : action ∈ plan.heading case) (tagMem : tag ∈ action.tags) :
    tag = plan.tag := by
  unfold heading at mem
  split at mem
  · rw [List.mem_singleton.mp mem] at tagMem
    obtain ⟨piece, pieceMem, tagged⟩ := List.mem_filterMap.mp tagMem
    exact Console.eq_of_tag?_header pieceMem tagged
  · cases mem

theorem eq_of_mem_tags_verdict {expectations : Expectations} {execution : Execution}
    (mem : action ∈ plan.verdict case expectations execution) (tagMem : tag ∈ action.tags) :
    tag = plan.tag := by
  simp only [verdict, List.mem_cons, List.not_mem_nil, or_false] at mem
  rcases mem with rfl | rfl
  · cases tagMem
  · obtain ⟨piece, pieceMem, tagged⟩ := List.mem_filterMap.mp tagMem
    exact Console.eq_of_tag?_outcome pieceMem tagged

theorem eq_of_mem_tags_notice {path : String} (mem : action ∈ plan.notice path)
    (tagMem : tag ∈ action.tags) : tag = plan.tag := by
  unfold notice at mem
  split at mem
  · rw [List.mem_singleton.mp mem] at tagMem
    exact List.mem_singleton.mp tagMem
  · cases mem

/-- What a run prints carries the tag of its plan. -/
theorem Course.eq_of_mem_tags {launch : Launcher} {files after : Tree} {directory : Location}
    {actions : List Action} {result : Result Outcome}
    (course : plan.Course launch files directory actions after result) (mem : action ∈ actions)
    (tagMem : tag ∈ action.tags) : tag = plan.tag := by
  cases course with
  | refused => cases mem
  | unstarted => exact eq_of_mem_tags_heading mem tagMem
  | uncaptured | aborted | endless =>
      rcases List.mem_append.mp mem with mem | mem
      · exact eq_of_mem_tags_heading mem tagMem
      · rw [List.mem_singleton.mp mem] at tagMem
        cases tagMem
  | unreported | unwritten =>
      simp only [List.mem_append, List.mem_cons] at mem
      rcases mem with mem | rfl | mem
      · exact eq_of_mem_tags_heading mem tagMem
      · cases tagMem
      · exact eq_of_mem_tags_verdict mem tagMem
  | reported =>
      simp only [List.mem_append, List.mem_cons] at mem
      rcases mem with (mem | rfl | mem) | rfl | mem
      · exact eq_of_mem_tags_heading mem tagMem
      · cases tagMem
      · exact eq_of_mem_tags_verdict mem tagMem
      · cases tagMem
      · exact eq_of_mem_tags_notice mem tagMem

end Plan

namespace Harness

open CaseHarness.Language (FoundDirectly)

variable {environment : Environment} {words : List String} {tag : String}

theorem foundDirectly_runTag (environment : Environment) (options : CommandLine.Options)
    (loaded : Except FatalError Settings) :
    FoundDirectly (runTag environment options loaded) := by
  obtain ⟨language, tagEq⟩ := exists_tag_eq_runTag environment options loaded
  rw [← tagEq]
  exact Language.foundDirectly_tag language

/-- Each message of a run is rendered in a tag that is found in a catalogue. -/
theorem foundDirectly_of_mem_tags {launch : Launcher} {files : Tree} {directory : Location}
    {action : Action}
    (mem : action ∈ (run launch environment words
      { files := files, directory := directory }).1.actions) (tagMem : tag ∈ action.tags) :
    FoundDirectly tag := by
  let session : Session := { files := files, directory := directory }
  unfold run at mem
  split at mem
  · rw [List.mem_singleton.mp mem] at tagMem
    cases tagMem
  · next arguments asked =>
    cases loads : Settings.loadOptional files directory arguments.options.config with
    | error fatal =>
        rw [runArguments_actions_of_error session launch loads rfl] at mem
        rw [List.mem_singleton.mp mem] at tagMem
        rw [List.mem_singleton.mp tagMem]
        cases arguments.options.language with
        | none => exact Language.foundDirectly_tag .english
        | some requested => exact Language.foundDirectly_resolve requested
    | ok settings =>
        have inForce := foundDirectly_runTag environment arguments.options (.ok settings)
        rw [runArguments_of_loaded session launch (CommandLine.invocation_ne_nil asked) loads]
          at mem
        dsimp only at mem
        generalize runTag environment arguments.options (.ok settings) = runTag at mem inForce
        generalize planEq : planOf arguments (settings.override (settingsOf arguments.options))
          runTag = plan at mem
        have planTag : plan.tag = runTag := by
          rw [← planEq]
          rfl
        obtain ⟨actions, after, finalEq, course⟩ :=
          plan.execute_course launch { session with tag := runTag }
        have printed : ∀ other ∈ actions, tag ∈ other.tags → FoundDirectly tag := by
          intro other otherMem otherTag
          rw [course.eq_of_mem_tags otherMem otherTag, planTag]
          exact inForce
        have executed : (plan.execute launch { session with tag := runTag }).1 =
            { session with tag := runTag, files := after, actions := actions } := finalEq
        rcases ended_cases (plan.execute launch { session with tag := runTag }) with
          same | ⟨fatal, -, gaveUp⟩
        · rw [same, executed] at mem
          exact printed action mem tagMem
        · rw [gaveUp, executed] at mem
          rcases List.mem_append.mp mem with mem | mem
          · exact printed action mem tagMem
          · rw [List.mem_singleton.mp mem] at tagMem
            rw [List.mem_singleton.mp tagMem]
            exact inForce

/-- A request is resolved to itself if it is available, else to the first available tag of the
same primary language, else to English.  With English among the available tags the answer is
available and serves itself.  So whatever tag is put in force, for an answer to the command
line or for a message of a run, is found in a catalogue without being shortened. -/
theorem resolved_tag_serves_itself :
    (∀ available requested tag, Language.resolveAmong available requested = tag ↔
      Language.Serves available requested tag) ∧
    (∀ available, "en" ∈ available → ∀ requested,
      Language.resolveAmong available requested ∈ available ∧
        Language.resolveAmong available (Language.resolveAmong available requested) =
          Language.resolveAmong available requested) ∧
    (∀ requested, Language.resolve requested ∈ Language.bundled ∧
      Language.resolve (Language.resolve requested) = Language.resolve requested ∧
      FoundDirectly (Language.resolve requested)) ∧
    (∀ environment, FoundDirectly environment.detect ∧
      (∀ words, FoundDirectly (CommandLine.answerTag environment words)) ∧
      ∀ options loaded, FoundDirectly (runTag environment options loaded)) ∧
    ∀ launch environment words files directory,
      ∀ action ∈ (run launch environment words
        { files := files, directory := directory }).1.actions,
        ∀ tag ∈ action.tags, FoundDirectly tag := by
  have closed {available : List String} (english : "en" ∈ available) (requested : String) :
      Language.resolveAmong available requested ∈ available ∧
        Language.resolveAmong available (Language.resolveAmong available requested) =
          Language.resolveAmong available requested := by
    have mem := Language.resolveAmong_mem english requested
    exact ⟨mem, Language.resolveAmong_of_mem mem⟩
  refine ⟨fun _ _ _ => Language.resolveAmong_eq_iff, fun _ => closed, ?_, ?_, ?_⟩
  · intro requested
    obtain ⟨mem, same⟩ := closed (Language.mem_bundled_iff.mpr (Or.inl rfl)) requested
    exact ⟨mem, same, Language.foundDirectly_resolve requested⟩
  · intro environment
    exact ⟨Language.foundDirectly_detect environment,
      Language.foundDirectly_answerTag environment, foundDirectly_runTag environment⟩
  · intro launch environment words files directory action mem tag tagMem
    exact foundDirectly_of_mem_tags mem tagMem

/-- A tag that is available serves itself although one of its language stands before it, and a
request with a region and an encoding is served by the first one. -/
theorem resolved_tags_of_german :
    Language.Serves ["de-AT", "de", "en"] "de" "de" ∧
      Language.Serves ["de-AT", "de", "en"] "de_CH.UTF-8" "de-AT" ∧
      "en" ∈ ["de-AT", "de", "en"] ∧
      Language.resolveAmong ["de-AT", "de", "en"] "fr" ∈ ["de-AT", "de", "en"] := by
  obtain ⟨serves, closed, -⟩ := resolved_tag_serves_itself
  have english : "en" ∈ ["de-AT", "de", "en"] := by decide
  exact ⟨(serves _ _ _).mp (by decide), (serves _ _ _).mp (by decide), english,
    (closed _ english "fr").1⟩

end Harness

end CaseHarness
