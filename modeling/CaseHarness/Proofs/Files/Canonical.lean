import CaseHarness.Proofs.Run.ProgramPath

/-!
# Canonical locations

A walk from a real place leads to a real place: its names stand for themselves, and above it
there are only folders, for a symbolic link is never part of where a walk has got to.  The path
of a real place is the plainest of all that lead there.  A walk along it visits just the names
of the place, so whatever ends there, its path leads back to it.
-/

namespace CaseHarness

/-- A name that stands for itself on a walk. -/
structure PlainName (name : String) : Prop where
  ne_empty : name ≠ ""
  ne_here : name ≠ "."
  ne_above : name ≠ ".."
  oneName : '/' ∉ name.toList
  fits : (Text.Utf8.encode name).length ≤ Tree.maxNameLength

/-- A location of plain names that lies in folders, so that no link is crossed on the way. -/
structure Tree.Real (tree : Tree) (location : Location) : Prop where
  plain : ∀ name ∈ location, PlainName name
  inFolders : ∀ parents, parents <+: location → parents ≠ location →
    tree.node? parents = some .folder

namespace Location

variable {location : Location} {name : String}

theorem Proper.of_real {tree : Tree} (real : tree.Real location) : location.Proper :=
  fun name mem => ⟨(real.plain name mem).ne_empty, (real.plain name mem).oneName⟩

theorem split_append_join (proper : location.Proper) (first : List Char) (clean : '/' ∉ first) :
    Path.split '/' (first ++ (String.join (location.map fun name => "/" ++ name)).toList) =
      first :: location.map String.toList := by
  induction location generalizing first with
  | nil => simpa using Path.split_of_notMem clean
  | cons name location ih =>
      obtain ⟨headProper, tailProper⟩ := List.forall_mem_cons.mp proper
      have unfolded : (String.join ((name :: location).map fun name => "/" ++ name)).toList =
          '/' :: (name.toList ++ (String.join (location.map fun name => "/" ++ name)).toList) := by
        simp only [List.map_cons, String.join_cons, String.toList_append]
        rfl
      rw [unfolded, Path.split_append clean, ih tailProper _ headProper.2, List.map_cons]

/-- A walk along the path of a location visits its names. -/
theorem steps_path (proper : location.Proper) (below : location ≠ []) :
    Tree.steps location.path = location := by
  have unended : Path.endsInSlash location.path = false := by
    have ended := endsInSlash_path proper ""
    rw [String.empty_append] at ended
    exact Bool.eq_false_iff.mpr (ended.not.mpr below)
  have divided := split_append_join proper [] List.not_mem_nil
  have kept : location.filter (fun name => name ≠ "") = location :=
    List.filter_eq_self.mpr fun name mem => decide_eq_true (proper name mem).1
  rw [List.nil_append] at divided
  rw [Tree.steps, unended, path, if_neg below]
  simp only [Bool.false_eq_true, if_false, Tree.pieces, divided, List.map_cons, List.map_map,
    Function.comp_def, String.ofList_toList, List.map_id']
  simpa using kept

end Location

namespace Tree

variable {tree : Tree} {here place folder : Location} {names : List String} {name path : String}
  {aim : Aim} {follow : Location → List String → Except FileError Arrival}

theorem Real.root (tree : Tree) : tree.Real [] where
  plain := List.forall_mem_nil _
  inFolders := fun _ below different => absurd (List.prefix_nil.mp below) different

theorem Real.of_prefix (real : tree.Real place) (above : folder <+: place) :
    tree.Real folder where
  plain := fun name mem => real.plain name (above.subset mem)
  inFolders := by
    intro parents below different
    refine real.inFolders parents (below.trans above) fun same => ?_
    rw [same] at below different
    exact different (above.eq_of_length_le below.length_le).symm

theorem Real.child (real : tree.Real here) (isFolder : tree.node? here = some .folder)
    (plain : PlainName name) : tree.Real (here ++ [name]) where
  plain := List.forall_mem_append.mpr ⟨real.plain, List.forall_mem_singleton.mpr plain⟩
  inFolders := by
    intro parents below different
    rcases List.prefix_concat_iff.mp below with same | above
    · exact absurd same different
    · by_cases same : parents = here
      · rw [same]
        exact isFolder
      · exact real.inFolders parents above same

theorem notMem_of_mem_steps (mem : name ∈ steps path) : '/' ∉ name.toList := by
  have inPieces (pieceMem : name ∈ pieces path) : '/' ∉ name.toList := by
    obtain ⟨mapMem, -⟩ := List.mem_filter.mp pieceMem
    obtain ⟨piece, splitMem, rfl⟩ := List.mem_map.mp mapMem
    rw [String.toList_ofList]
    exact Path.notMem_of_mem_split splitMem
  unfold steps at mem
  split at mem
  · rcases List.mem_append.mp mem with pieceMem | last
    · exact inPieces pieceMem
    · rw [List.mem_singleton.mp last]
      exact List.not_mem_nil
  · exact inPieces mem

/-- A walk keeps to real places, if what follows its links does. -/
theorem real_of_walkWith
    (follows : ∀ here names, tree.Real here → (∀ name ∈ names, '/' ∉ name.toList) →
      follow here names = .ok (.present place) → tree.Real place)
    (real : tree.Real here) (clean : ∀ name ∈ names, '/' ∉ name.toList)
    (walks : walkWith follow tree aim here names = .ok (.present place)) : tree.Real place := by
  induction names generalizing here with
  | nil =>
      cases walks
      exact real
  | cons name rest ih =>
      obtain ⟨nameClean, restClean⟩ := List.forall_mem_cons.mp clean
      rw [walkWith] at walks
      split at walks
      · next isFolder =>
        split at walks
        · exact ih real restClean walks
        · next goesOn =>
          obtain ⟨ne_empty, ne_here⟩ := not_or.mp goesOn
          split at walks
          · exact ih (real.of_prefix (List.dropLast_prefix here)) restClean walks
          · next ne_above =>
            split at walks
            · cases walks
            · split at walks
              · cases walks
              · next fits =>
                have child : tree.Real (here ++ [name]) :=
                  real.child isFolder ⟨ne_empty, ne_here, ne_above, nameClean, not_lt.mp fits⟩
                split at walks
                · split at walks <;> cases walks
                · next target isLink =>
                  split at walks
                  · cases walks
                    exact child
                  · refine follows _ _ ?_ ?_ walks
                    · split
                      · exact .root tree
                      · exact real
                    · exact List.forall_mem_append.mpr
                        ⟨fun _ mem => notMem_of_mem_steps mem, restClean⟩
                · exact ih child restClean walks
      · cases walks
      · cases walks

theorem real_of_walk {links : Nat} (real : tree.Real here)
    (clean : ∀ name ∈ names, '/' ∉ name.toList)
    (walks : walk tree aim links here names = .ok (.present place)) : tree.Real place := by
  induction links generalizing here names with
  | zero =>
      refine real_of_walkWith (fun _ _ _ _ refused => ?_) real clean walks
      cases refused
  | succ links ih => exact real_of_walkWith (fun _ _ => ih) real clean walks

/-- What a path names from a real directory is at a real place. -/
theorem real_of_locate {directory : Location} (real : tree.Real directory)
    (located : tree.locate directory path = .ok place) : tree.Real place := by
  unfold locate arrive at located
  split at located
  · next arrived =>
    cases located
    split at arrived
    · cases arrived
    · refine real_of_walk ?_ (fun _ => notMem_of_mem_steps) arrived
      unfold startOf
      split
      · exact .root tree
      · exact real
  · cases located
  · cases located

/-- Nothing turns a walk aside on its way to a real place. -/
theorem walkWith_of_real (real : tree.Real (here ++ names))
    (present : ∃ node, tree.node? (here ++ names) = some node ∧ ∀ target, node ≠ .link target) :
    walkWith follow tree .use here names = .ok (.present (here ++ names)) := by
  induction names generalizing here with
  | nil => simp [walkWith]
  | cons name rest ih =>
      have plain := real.plain name (by simp)
      have isFolder : tree.node? here = some .folder :=
        real.inFolders here (List.prefix_append _ _) (by simp)
      have whole : here ++ name :: rest = here ++ [name] ++ rest := by simp
      have next : ∃ node, tree.node? (here ++ [name]) = some node ∧
          ∀ target, node ≠ .link target := by
        by_cases last : rest = []
        · rwa [last] at present
        · refine ⟨.folder, real.inFolders _ (by rw [whole]; exact List.prefix_append _ _) ?_, nofun⟩
          simpa using Ne.symm last
      obtain ⟨node, nodeEq, noLink⟩ := next
      rw [whole] at real present ⊢
      have goesOn := ih real present
      rw [walkWith, isFolder, nodeEq]
      simp only [plain.ne_empty, plain.ne_here, plain.ne_above, not_lt.mpr plain.fits, or_self,
        reduceCtorEq, false_and, if_false]
      cases node with
      | link target => exact absurd rfl (noLink target)
      | folder | file | program | device => exact goesOn

/-- The path of a real place that the system accepts leads to it from everywhere. -/
theorem locate_path (real : tree.Real place)
    (present : ∃ node, tree.node? place = some node ∧ ∀ target, node ≠ .link target)
    (accepted : pathFault? place.path = none) (elsewhere : Location) :
    tree.locate elsewhere place.path = .ok place := by
  obtain ⟨rest, pathEq⟩ := place.exists_toList_path
  have fromRoot : startOf elsewhere place.path = [] := by
    simp [startOf, Path.isAbsolute, pathEq]
  have walks : walk tree .use maxLinks [] (steps place.path) = .ok (.present place) := by
    by_cases below : place = []
    · rw [below]
      have stepsEq : steps (Location.path []) = [""] := by decide
      rw [stepsEq, maxLinks, walk]
      simp [walkWith]
    · rw [Location.steps_path (.of_real real) below, maxLinks, walk]
      exact walkWith_of_real real present
  simp [locate, arrive, accepted, fromRoot, walks]

/-- A plain name leads into the folder that it is taken from. -/
theorem locate_name (real : tree.Real (folder ++ [name]))
    (present : ∃ node, tree.node? (folder ++ [name]) = some node ∧ ∀ target, node ≠ .link target)
    (accepted : pathFault? name = none) :
    tree.locate folder name = .ok (folder ++ [name]) := by
  have plain := real.plain name (by simp)
  have relative : startOf folder name = folder := by
    have inside : Path.isAbsolute name = false := by
      simp only [Path.isAbsolute, decide_eq_false_iff_not]
      exact fun slash => plain.oneName (List.mem_of_mem_head? slash)
    simp [startOf, inside]
  have stepsEq : steps name = [name] := by
    have unended : Path.endsInSlash name = false := by
      simp only [Path.endsInSlash, decide_eq_false_iff_not]
      exact fun slash => plain.oneName (List.mem_of_getLast? slash)
    simp [steps, pieces, unended, Path.split_of_notMem plain.oneName, plain.ne_empty]
  have walks : walk tree .use maxLinks folder [name] = .ok (.present (folder ++ [name])) := by
    rw [maxLinks, walk]
    exact walkWith_of_real real present
  simp [locate, arrive, accepted, relative, stepsEq, walks]

theorem pathFault?_eq_none_iff : pathFault? path = none ↔
    path ≠ "" ∧ '\x00' ∉ path.toList ∧ (Text.Utf8.encode path).length ≤ maxPathLength := by
  unfold pathFault?
  by_cases empty : path = ""
  · simp [empty]
  · by_cases nul : '\x00' ∈ path.toList
    · simp [empty, nul]
    · simp [empty, nul]

/-- If the system accepts the path of a place, it accepts that of the folder around it. -/
theorem pathFault?_folder (accepted : pathFault? (Location.path (folder ++ [name])) = none) :
    pathFault? folder.path = none := by
  by_cases root : folder = []
  · rw [root]
    decide
  · obtain ⟨-, noNul, short⟩ := pathFault?_eq_none_iff.mp accepted
    rw [Location.path_append_singleton, if_neg root] at noNul short
    obtain ⟨rest, pathEq⟩ := folder.exists_toList_path
    refine pathFault?_eq_none_iff.mpr ⟨fun empty => ?_, fun nul => noNul ?_, ?_⟩
    · simp [empty] at pathEq
    · simp [nul]
    · simp only [Text.Utf8.encode, String.toList_append, List.flatMap_append,
        List.length_append] at short ⊢
      omega

theorem pathFault?_name (plain : PlainName name)
    (accepted : pathFault? (Location.path (folder ++ [name])) = none) :
    pathFault? name = none := by
  obtain ⟨-, noNul, -⟩ := pathFault?_eq_none_iff.mp accepted
  refine pathFault?_eq_none_iff.mpr ⟨plain.ne_empty, fun nul => noNul ?_, ?_⟩
  · simp [Location.path_append_singleton, nul]
  · have shorter : maxNameLength ≤ maxPathLength := by decide
    exact plain.fits.trans shorter

end Tree

end CaseHarness
