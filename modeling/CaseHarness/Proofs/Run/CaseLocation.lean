import CaseHarness.Proofs.Files.Canonical
import CaseHarness.Proofs.Run.Course

/-!
# Where a test case stands

A test case keeps the folder in which its file really stands and the name that the file has
there.  Whatever path leads to the file, the case is the same, and folder and name put together
lead to it again.  So the path in the report, the directory in which the program runs and the
name that the program receives all mean the file that was read.
-/

namespace CaseHarness

variable {files : Tree} {directory folder place : Location} {name path : String}
  {content : List UInt8}

/-- What stands at a location is a regular file with this content. -/
def Tree.HasFile (files : Tree) (place : Location) (content : List UInt8) : Prop :=
  (∃ executable, files.node? place = some (.file content executable)) ∨
    content = [] ∧ ∃ program, files.node? place = some (.program program)

namespace Tree.HasFile

theorem contentAt (hasFile : files.HasFile place content) :
    files.contentAt place = .ok content := by
  rcases hasFile with ⟨executable, nodeEq⟩ | ⟨rfl, program, nodeEq⟩ <;>
    simp [Tree.contentAt, nodeEq]

theorem present (hasFile : files.HasFile place content) :
    ∃ node, files.node? place = some node ∧ ∀ target, node ≠ .link target := by
  rcases hasFile with ⟨executable, nodeEq⟩ | ⟨-, program, nodeEq⟩
  · exact ⟨_, nodeEq, nofun⟩
  · exact ⟨_, nodeEq, nofun⟩

theorem ne_root (hasFile : files.HasFile place content) : place ≠ [] := by
  rintro rfl
  rcases hasFile with ⟨executable, nodeEq⟩ | ⟨-, program, nodeEq⟩ <;> simp at nodeEq

theorem namesFile (hasFile : files.HasFile place content)
    (located : files.locate directory path = .ok place) :
    files.namesFile directory path = true := by
  rcases hasFile with ⟨executable, nodeEq⟩ | ⟨-, program, nodeEq⟩ <;>
    simp [Tree.namesFile, located, nodeEq]

end Tree.HasFile

namespace TestCase

theorem joinPath_path (proper : folder.Proper) (oneName : '/' ∉ name.toList) :
    joinPath folder.path name = Location.path (folder ++ [name]) := by
  have relative : name.toList.head? ≠ some '/' :=
    fun slash => oneName (List.mem_of_mem_head? slash)
  have ended := Location.endsInSlash_path proper ""
  rw [String.empty_append, Path.endsInSlash, decide_eq_true_iff] at ended
  obtain ⟨rest, pathEq⟩ := folder.exists_toList_path
  have nonempty : folder.path.isEmpty = false := by
    rw [← Bool.not_eq_true, String.isEmpty_iff, ← String.toList_inj]
    simp [pathEq]
  rw [joinPath, if_neg relative, Location.path_append_singleton, nonempty]
  by_cases root : folder = []
  · rw [root]
    rfl
  · simp [ended, root, String.append_assoc]

/-- A file is loaded from whatever path leads to it. -/
theorem load_of_locate (real : files.Real (folder ++ [name]))
    (hasFile : files.HasFile (folder ++ [name]) content)
    (accepted : Tree.pathFault? (Location.path (folder ++ [name])) = none)
    (located : files.locate directory path = .ok (folder ++ [name])) :
    load files directory path =
      .ok (ofSource (Location.path folder) name (Text.Utf8.decode content)) := by
  have proper : Location.Proper folder :=
    .of_real (real.of_prefix (List.prefix_append folder [name]))
  have joined := joinPath_path proper (real.plain name (by simp)).oneName
  refine load_eq_ok_iff.mpr ⟨hasFile.namesFile located, folder, name, content, located, ?_, rfl⟩
  rw [Tree.read, joined, Tree.locate_path real hasFile.present accepted]
  exact hasFile.contentAt

/-- What a run does with its test case: the program runs in its directory and receives its name
last, and the report tells its path. -/
def UsedIn (case : TestCase) : Action → Prop
  | .started request =>
      request.directory = case.directory ∧ request.arguments.getLast? = some case.name
  | .reported _ report => report.testCase = case.path
  | .printed _ | .answered _ | .gaveUp .. => True

theorem usedIn_of_course {plan : Plan} {launch : Launcher} {case : TestCase} {after : Tree}
    {actions : List Action} {result : Result Outcome}
    (loads : load files directory plan.testCase = .ok case)
    (course : plan.Course launch files directory actions after result) :
    ∀ action ∈ actions, case.UsedIn action := by
  -- The case that a course is about is the one that is loaded.
  have sameCase {other : TestCase} (found : Found files directory plan.testCase other) :
      other = case := by
    rw [load_eq_ok_iff.mpr found] at loads
    exact Except.ok.inj loads
  have printed {action : Action} (prints : ∃ pieces, action = .printed pieces) :
      case.UsedIn action := by
    obtain ⟨pieces, rfl⟩ := prints
    trivial
  have started {expectations : Expectations} {request : Request} {launched : Launched}
      {other : TestCase}
      (starts : plan.Starts launch files directory other expectations request launched) :
      case.UsedIn (.started request) := by
    obtain rfl := sameCase starts.found
    refine ⟨starts.spawns.place, ?_⟩
    rw [starts.spawns.words]
    simp [TestCase.arguments]
  intro action mem
  cases course with
  | refused => cases mem
  | unstarted => exact printed (Plan.printed_of_mem_heading mem)
  | uncaptured starts | aborted starts | endless starts =>
      rcases List.mem_append.mp mem with mem | mem
      · exact printed (Plan.printed_of_mem_heading mem)
      · rw [List.mem_singleton.mp mem]
        exact started starts
  | unreported starts | unwritten starts =>
      simp only [List.mem_append, List.mem_cons] at mem
      rcases mem with mem | rfl | mem
      · exact printed (Plan.printed_of_mem_heading mem)
      · exact started starts
      · exact printed (Plan.printed_of_mem_verdict mem)
  | reported starts =>
      simp only [List.mem_append, List.mem_cons] at mem
      rcases mem with (mem | rfl | mem) | rfl | mem
      · exact printed (Plan.printed_of_mem_heading mem)
      · exact started starts
      · exact printed (Plan.printed_of_mem_verdict mem)
      · obtain rfl := sameCase starts.found
        rfl
      · exact printed (Plan.printed_of_mem_notice mem)

/-- Whatever path leads to a regular file, the case that is loaded is the same one.  Its path is
that of the place where the file stands, its name is one name, and from this path it is loaded
again.  The directory that it keeps is the folder around the file, from where its name leads to
the file; this directory, this name and this path are what a run uses. -/
theorem loaded_case_keeps_place (real : files.Real directory)
    (located : files.locate directory path = .ok place) (hasFile : files.HasFile place content)
    (accepted : Tree.pathFault? place.path = none) :
    ∃ case, load files directory path = .ok case ∧
      case.path = place.path ∧ case.name ≠ "" ∧ '/' ∉ case.name.toList ∧
      case.lines = Text.lines (Text.Utf8.decode content) ∧
      (∀ elsewhere spelling, files.locate elsewhere spelling = .ok place →
        load files elsewhere spelling = .ok case) ∧
      (∀ elsewhere, load files elsewhere case.path = .ok case) ∧
      (∃ folder, (∀ elsewhere, files.locate elsewhere case.directory = .ok folder) ∧
        files.locate folder case.name = .ok place) ∧
      ∀ plan launch, plan.testCase = path →
        ∀ action ∈ (Plan.execute plan launch
          { files := files, directory := directory }).1.actions, case.UsedIn action := by
  have realPlace := Tree.real_of_locate real located
  rcases List.eq_nil_or_concat place with root | ⟨folder, name, placeEq⟩
  · exact absurd root hasFile.ne_root
  rw [List.concat_eq_append] at placeEq
  subst placeEq
  have plain := realPlace.plain name (by simp)
  have realFolder := realPlace.of_prefix (List.prefix_append folder [name])
  have isFolder : files.node? folder = some .folder :=
    realPlace.inFolders folder (List.prefix_append _ _) (by simp)
  have pathEq : joinPath (Location.path folder) name = Location.path (folder ++ [name]) :=
    joinPath_path (.of_real realFolder) plain.oneName
  have loadsFrom {elsewhere : Location} {spelling : String}
      (leads : files.locate elsewhere spelling = .ok (folder ++ [name])) :
      load files elsewhere spelling =
        .ok (ofSource (Location.path folder) name (Text.Utf8.decode content)) :=
    load_of_locate realPlace hasFile accepted leads
  refine ⟨_, loadsFrom located, pathEq, plain.ne_empty, plain.oneName, rfl,
    fun _ _ => loadsFrom, fun elsewhere => ?_, ⟨folder, fun elsewhere => ?_, ?_⟩, ?_⟩
  · refine loadsFrom ?_
    rw [TestCase.path, ofSource, pathEq]
    exact Tree.locate_path realPlace hasFile.present accepted elsewhere
  · exact Tree.locate_path realFolder ⟨.folder, isFolder, nofun⟩ (Tree.pathFault?_folder accepted)
      elsewhere
  · exact Tree.locate_name realPlace hasFile.present (Tree.pathFault?_name plain accepted)
  · rintro plan launch rfl action mem
    obtain ⟨actions, after, finalEq, course⟩ :=
      plan.execute_course launch { files := files, directory := directory }
    have actionsEq : (plan.execute launch { files := files, directory := directory }).1.actions =
        actions := by
      rw [finalEq]
      rfl
    rw [actionsEq] at mem
    exact usedIn_of_course (loadsFrom located) course action mem

/-- A file in the root, whose name begins with a hyphen and holds a blank, found through a
symbolic link in the current directory. -/
theorem keeps_place_in_root :
    let files : Tree := ⟨[(["work"], .folder), (["work", "case"], .link "../-t case.tcf"),
      (["-t case.tcf"], .file (Text.Utf8.encode "# EXIT 3\n") false)]⟩
    files.locate ["work"] "./case" = .ok ["-t case.tcf"] ∧
      ∃ case, load files ["work"] "./case" = .ok case ∧ case.path = "/-t case.tcf" ∧
        load files ["work"] "..//-t case.tcf" = .ok case ∧
        ∀ elsewhere, load files elsewhere case.path = .ok case := by
  intro files
  have real : files.Real ["work"] :=
    (Tree.Real.root files).child (by decide) ⟨by decide, by decide, by decide, by decide, by decide⟩
  have located : files.locate ["work"] "./case" = .ok ["-t case.tcf"] := by decide +kernel
  obtain ⟨case, loads, pathEq, -, -, -, same, again, -⟩ := loaded_case_keeps_place real located
    (Or.inl ⟨false, rfl⟩) (by decide)
  exact ⟨located, case, loads, pathEq, same ["work"] _ (by decide +kernel), again⟩

end TestCase

end CaseHarness
