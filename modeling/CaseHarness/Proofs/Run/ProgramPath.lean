import CaseHarness.Proofs.Text.Pieces
import CaseHarness.Run.Target

/-!
# The path of the program

A program that is named with a slash is started from its absolute path, so that the directory of
the test case has no part in which file that is.  The absolute path is described here by the
location that it spells: the directory of the harness, unless the path begins at the root, and
behind it the names of the path.  Which programs are left as they are is decided by counting
names, though, and not by looking for a slash.  So a relative path whose first slash has only
slashes and single dots behind it keeps its slash and stays relative.
-/

namespace CaseHarness

/-- Every name of a location is a name: there is something in it, but no slash. -/
def Location.Proper (location : Location) : Prop :=
  ∀ name ∈ location, name ≠ "" ∧ '/' ∉ name.toList

namespace Path

variable {mark : Char} {first characters piece : List Char} {name path : String}

theorem split_of_notMem (clean : mark ∉ characters) : split mark characters = [characters] := by
  induction characters with
  | nil => rfl
  | cons character characters ih =>
      obtain ⟨different, others⟩ := List.ne_and_not_mem_of_not_mem_cons clean
      rw [split, if_neg different.symm, ih others]

theorem split_append (clean : mark ∉ first) (rest : List Char) :
    split mark (first ++ mark :: rest) = first :: split mark rest := by
  induction first with
  | nil => simp [split]
  | cons character first ih =>
      obtain ⟨different, others⟩ := List.ne_and_not_mem_of_not_mem_cons clean
      rw [List.cons_append, split, if_neg different.symm, ih others]

theorem notMem_of_mem_split (mem : piece ∈ split mark characters) : mark ∉ piece := by
  induction characters using Text.lines_induction mark with
  | last line clean =>
      rw [split_of_notMem clean, List.mem_singleton] at mem
      rwa [mem]
  | ended line back clean ih =>
      rw [split_append clean] at mem
      rcases List.mem_cons.mp mem with rfl | behind
      · exact clean
      · exact ih behind

theorem proper_names (path : String) : Location.Proper (names path) := by
  intro name mem
  obtain ⟨pieceMem, kept⟩ := List.mem_filter.mp mem
  obtain ⟨piece, splitMem, rfl⟩ := List.mem_map.mp pieceMem
  rw [String.toList_ofList]
  exact ⟨(of_decide_eq_true kept).1, notMem_of_mem_split splitMem⟩

/-- What stands in front of a slash is a name or is passed over, and the other names follow. -/
theorem names_append (clean : '/' ∉ first) (rest : List Char) :
    names (String.ofList (first ++ '/' :: rest)) =
      (if first = [] ∨ first = ['.'] then [] else [String.ofList first]) ++
        names (String.ofList rest) := by
  have emptyIff : String.ofList first = "" ↔ first = [] := by
    rw [← String.toList_inj, String.toList_ofList, String.toList_empty]
  have dotIff : String.ofList first = "." ↔ first = ['.'] := by
    rw [← String.toList_inj, String.toList_ofList]
    exact Iff.rfl
  simp only [names, String.toList_ofList, split_append clean, List.map_cons, List.filter_cons]
  by_cases passed : first = [] ∨ first = ['.']
  · rcases passed with rfl | rfl <;> simp
  · obtain ⟨nonempty, noDot⟩ := not_or.mp passed
    simp [emptyIff, dotIff, nonempty, noDot]

/-- Whether a relative path has a slash, but no name behind the first one. -/
def TrailsOff (path : String) : Prop :=
  isAbsolute path = false ∧ '/' ∈ path.toList ∧
    names (String.ofList (path.toList.dropWhile fun character => character ≠ '/')) = []

instance (path : String) : Decidable (TrailsOff path) :=
  inferInstanceAs (Decidable (_ ∧ _))

theorem isBare_of_notMem (noSlash : '/' ∉ path.toList) : isBare path = true := by
  have relative : isAbsolute path = false := by
    simp only [isAbsolute, decide_eq_false_iff_not]
    exact fun slash => noSlash (List.mem_of_mem_head? slash)
  have atMostOne : (names path).length + (if beginsWithDot path then 1 else 0) ≤ 1 := by
    simp only [names, beginsWithDot, split_of_notMem noSlash]
    by_cases dot : path.toList = ['.']
    · simp [dot]
    · simp only [List.head?_cons, Option.some.injEq, dot, decide_false, Bool.false_eq_true,
        if_false, Nat.add_zero]
      exact List.length_filter_le _ _
  simp [isBare, relative, atMostOne]

/-- A relative path with a slash counts as a bare name if there is no name behind the slash. -/
theorem isBare_iff_of_mem (slash : '/' ∈ path.toList) : isBare path = true ↔ TrailsOff path := by
  obtain ⟨first, rest, split, clean⟩ := List.eq_append_cons_of_mem slash
  have behind : path.toList.dropWhile (fun character => character ≠ '/') = '/' :: rest := by
    have passed : ∀ character ∈ first, decide (character ≠ '/') = true :=
      fun character mem => decide_eq_true fun same => clean (same ▸ mem)
    rw [split, List.dropWhile_append_of_pos passed]
    simp
  have restNames : names (String.ofList ('/' :: rest)) = names (String.ofList rest) :=
    names_append List.not_mem_nil rest
  have pathEq : path = String.ofList (first ++ '/' :: rest) := by
    rw [← split, String.ofList_toList]
  -- What stands in front of the slash counts once: as a name, or as a dot at the beginning.
  have counted : isAbsolute path = false →
      (names path).length + (if beginsWithDot path then 1 else 0) =
        (names (String.ofList rest)).length + 1 := by
    intro relative
    have nonempty : first ≠ [] := by
      rintro rfl
      simp [isAbsolute, split] at relative
    have dotIff : beginsWithDot path = true ↔ first = ['.'] := by
      simp [beginsWithDot, split, split_append clean]
    have namesEq : names path = _ := (congrArg names pathEq).trans (names_append clean rest)
    rw [namesEq]
    by_cases dot : first = ['.']
    · simp [dotIff.mpr dot, dot]
    · simp [dotIff, nonempty, dot, Nat.add_comm]
  rw [TrailsOff, behind, restNames]
  constructor
  · intro bare
    obtain ⟨relative, few⟩ := (Bool.and_eq_true ..).mp bare
    have relativeEq : isAbsolute path = false := by simpa using relative
    rw [counted relativeEq] at few
    have none := of_decide_eq_true few
    exact ⟨relativeEq, slash, List.eq_nil_of_length_eq_zero (by omega)⟩
  · rintro ⟨relative, -, noNames⟩
    simp [isBare, relative, counted relative, noNames]

end Path

namespace Location

variable {location : Location} {name : String}

theorem path_append_singleton (location : Location) (name : String) :
    Location.path (location ++ [name]) =
      (if location = [] then "" else location.path) ++ ("/" ++ name) := by
  by_cases root : location = []
  · simp [path, root]
  · simp [path, root]

/-- The path of a location begins at the root. -/
theorem exists_toList_path (location : Location) : ∃ rest, location.path.toList = '/' :: rest := by
  unfold path
  split
  · exact ⟨[], rfl⟩
  · next below =>
    obtain ⟨name, others, rfl⟩ := List.exists_cons_of_ne_nil below
    exact ⟨_, by simp only [List.map_cons, String.join_cons, String.toList_append]; rfl⟩

theorem endsInSlash_path (proper : location.Proper) (front : String) :
    Path.endsInSlash (front ++ location.path) = true ↔ location = [] := by
  rcases List.eq_nil_or_concat location with rfl | ⟨parents, name, rfl⟩
  · simp [Path.endsInSlash, path]
  · rw [List.concat_eq_append] at proper ⊢
    obtain ⟨nonempty, noSlash⟩ := proper name (by simp)
    have unended : ('/' :: name.toList).getLast? ≠ some '/' := by
      rw [List.getLast?_cons_of_ne_nil (String.toList_eq_nil_iff.not.mpr nonempty)]
      exact fun slash => noSlash (List.mem_of_getLast? slash)
    simpa [Path.endsInSlash, path_append_singleton] using unended

theorem append_path (proper : location.Proper) (front name : String) :
    Path.append (front ++ location.path) name = front ++ Location.path (location ++ [name]) := by
  obtain ⟨rest, pathEq⟩ := exists_toList_path location
  have nonempty : (front ++ location.path).isEmpty = false := by
    rw [← Bool.not_eq_true, String.isEmpty_iff, ← String.toList_inj]
    simp [pathEq]
  rw [Path.append, nonempty, Bool.false_or, path_append_singleton]
  by_cases root : location = []
  · rw [if_pos ((endsInSlash_path proper front).mpr root), if_pos root, root]
    simp [path, String.append_assoc]
  · rw [if_neg ((endsInSlash_path proper front).not.mpr root), if_neg root]
    simp [String.append_assoc]

/-- Putting names behind a path goes down from its location. -/
theorem foldl_append_path {names : List String} (proper : location.Proper)
    (properNames : Location.Proper names) (front : String) :
    names.foldl Path.append (front ++ location.path) =
      front ++ Location.path (location ++ names) := by
  induction names generalizing location with
  | nil => simp
  | cons name names ih =>
      obtain ⟨first, others⟩ := List.forall_mem_cons.mp properNames
      have below : Location.Proper (location ++ [name]) :=
        List.forall_mem_append.mpr ⟨proper, List.forall_mem_singleton.mpr first⟩
      rw [List.foldl_cons, append_path proper, ih below others, List.append_assoc,
        List.singleton_append]

end Location

namespace Path

variable {directory : Location} {path : String}

/-- Whether a path begins with two slashes and no third one. -/
def HasDoubleRoot (path : String) : Prop :=
  ['/', '/'] <+: path.toList ∧ ¬ ['/', '/', '/'] <+: path.toList

instance (path : String) : Decidable (HasDoubleRoot path) :=
  inferInstanceAs (Decidable (_ ∧ _))

/-- The absolute path of the file that a path names, links left alone: it spells the location
where the path begins with the names of the path behind it.  A double root and a slash at the
end are kept. -/
def lexical (directory : Location) (path : String) : String :=
  let location := Tree.startOf directory path ++ names path
  (if HasDoubleRoot path then "/" else "") ++ location.path ++
    if endsInSlash path ∧ location ≠ [] then "/" else ""

theorem rootOf_eq (path : String) :
    rootOf path = (if HasDoubleRoot path then "/" else "") ++ Location.path [] := by
  unfold rootOf
  split
  · next split => simp [HasDoubleRoot, split, Location.path]
  · next split => simp [HasDoubleRoot, split, Location.path]
  · next rest noThird _ split =>
    have double : HasDoubleRoot path := by
      refine ⟨by simp [split], ?_⟩
      rintro ⟨others, same⟩
      exact noThird others (by simpa [split] using same.symm)
    simp [double, Location.path]
  · next noThird noEnd noDouble =>
    have single : ¬ HasDoubleRoot path := by
      rintro ⟨⟨rest, same⟩, -⟩
      exact noDouble rest same.symm
    simp [single, Location.path]

theorem not_hasDoubleRoot (relative : isAbsolute path = false) : ¬ HasDoubleRoot path := by
  rintro ⟨⟨rest, same⟩, -⟩
  simp [isAbsolute, ← same] at relative

theorem absolute_eq_lexical (proper : directory.Proper) (path : String) :
    absolute directory.path path = lexical directory path := by
  let front := if HasDoubleRoot path then "/" else ""
  have startProper : (Tree.startOf directory path).Proper := by
    unfold Tree.startOf
    split
    · exact List.forall_mem_nil _
    · exact proper
  have base : (if isAbsolute path then rootOf path else directory.path) =
      front ++ (Tree.startOf directory path).path := by
    unfold Tree.startOf
    split
    · exact rootOf_eq path
    · next relative =>
      have single := not_hasDoubleRoot (Bool.eq_false_iff.mpr relative)
      simp [front, single]
  have named := Location.foldl_append_path startProper (proper_names path) front
  have ended := Location.endsInSlash_path
    (List.forall_mem_append.mpr ⟨startProper, proper_names path⟩) front
  simp only [absolute, lexical, base, named]
  generalize Tree.startOf directory path ++ names path = location at ended
  -- Only the root ends in a slash of its own, so only there is none added.
  by_cases root : location = []
  · have kept : endsInSlash (front ++ location.path) = true := ended.mpr root
    rw [kept]
    simp [root, front]
  · have added : endsInSlash (front ++ location.path) = false :=
      Bool.eq_false_iff.mpr (ended.not.mpr root)
    simp only [added, Bool.not_false, Bool.and_true, ne_eq, root, not_false_eq_true, and_true]
    split
    · rfl
    · rw [String.append_empty]

theorem isAbsolute_lexical (directory : Location) (path : String) :
    isAbsolute (lexical directory path) = true := by
  obtain ⟨rest, pathEq⟩ := (Tree.startOf directory path ++ names path).exists_toList_path
  unfold isAbsolute lexical
  split <;> simp [pathEq]

end Path

section Program

variable {files : Tree} {directory : Location} {program : String}

/-- What is asked of the program that is found: it is the same file whatever directory it is
started in. -/
structure ResolvesProgram (files : Tree) (directory : Location) (program : String)
    (answer : Except FatalError String) : Prop where
  found : ∀ path, answer = .ok path →
    (path = program ∧ '/' ∉ path.toList) ∨ path = Path.lexical directory program
  /-- A path with a slash begins at the root. -/
  rooted : ∀ path, answer = .ok path → '/' ∈ path.toList → Path.isAbsolute path = true
  refused : (∃ fatal, answer = .error fatal) ↔
    '/' ∈ program.toList ∧ files.names directory (Path.lexical directory program) = false

theorem resolveProgram_of_isBare (bare : Path.isBare program = true) :
    resolveProgram files directory program = .ok program := by
  simp [resolveProgram, bare]

theorem resolveProgram_of_not_isBare (proper : directory.Proper)
    (named : Path.isBare program = false) :
    resolveProgram files directory program =
      if files.names directory (Path.lexical directory program) then
        .ok (Path.lexical directory program)
      else .error (.programNotFound program) := by
  rw [resolveProgram, named, Path.absolute_eq_lexical proper]
  rfl

theorem resolvesProgram_of_not_trailsOff (proper : directory.Proper)
    (namesFile : ¬ Path.TrailsOff program) :
    ResolvesProgram files directory program (resolveProgram files directory program) := by
  by_cases slash : '/' ∈ program.toList
  · have named : Path.isBare program = false :=
      Bool.eq_false_iff.mpr ((Path.isBare_iff_of_mem slash).not.mpr namesFile)
    have absolute := Path.isAbsolute_lexical directory program
    rw [resolveProgram_of_not_isBare proper named]
    cases present : files.names directory (Path.lexical directory program) with
    | true => constructor <;> simp [absolute, present]
    | false => constructor <;> simp [slash, present]
  · rw [resolveProgram_of_isBare (Path.isBare_of_notMem slash)]
    constructor <;> simp [slash]

/-- The program does not depend on the directory that it is started in, exactly if there is no
slash in it, or it begins at the root, or there is a name behind its first slash. -/
theorem resolveProgram_resolves_iff (proper : directory.Proper) (files : Tree)
    (program : String) :
    ResolvesProgram files directory program (resolveProgram files directory program) ↔
      ¬ Path.TrailsOff program := by
  constructor
  · rintro resolves ⟨relative, slash, noNames⟩
    have bare := (Path.isBare_iff_of_mem slash).mpr ⟨relative, slash, noNames⟩
    have absolute := resolves.rooted program (resolveProgram_of_isBare bare) slash
    rw [relative] at absolute
    cases absolute
  · exact resolvesProgram_of_not_trailsOff proper

/-- A double dot, single dots and slashes side by side. -/
theorem resolves_program_above :
    let files : Tree := ⟨[(["work"], .folder), (["tool"], .file [] true)]⟩
    ResolvesProgram files ["work"] ".//.././tool"
        (resolveProgram files ["work"] ".//.././tool") ∧
      resolveProgram files ["work"] ".//.././tool" = .ok "/work/../tool" := by
  intro files
  have proper : Location.Proper ["work"] := by
    unfold Location.Proper
    decide
  exact ⟨(resolveProgram_resolves_iff proper files ".//.././tool").mpr (by decide +kernel),
    by decide +kernel⟩

/-- A slash behind the only name is kept and makes nothing absolute. -/
theorem folder_path_stays_relative :
    let files : Tree := ⟨[(["work"], .folder), (["work", "bin"], .folder)]⟩
    resolveProgram files ["work"] "bin/" = .ok "bin/" ∧
      Path.lexical ["work"] "bin/" = "/work/bin/" ∧
      files.names ["work"] "/work/bin/" = true ∧
      ¬ ResolvesProgram files ["work"] "bin/" (resolveProgram files ["work"] "bin/") := by
  intro files
  have answer : resolveProgram files ["work"] "bin/" = .ok "bin/" := by decide +kernel
  refine ⟨answer, by decide +kernel, by decide +kernel, fun resolves => ?_⟩
  have absolute := resolves.rooted "bin/" answer (by decide)
  have relative : Path.isAbsolute "bin/" = false := by decide
  rw [relative] at absolute
  cases absolute

end Program

end CaseHarness
