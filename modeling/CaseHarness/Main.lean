import CaseHarness.Run.Harness
import CaseHarness.Shell.Launch
import CaseHarness.Shell.System

/-!
# The command

The harness works on a snapshot of the files below the current directory, in
which the programs of the system are those that the shell of this library
knows, and every file counts as executable.  What a run writes is written back
when the run is over.
-/

namespace CaseHarness

/-- How many levels of folders a snapshot goes down. -/
def snapshotDepth : Nat :=
  12

/-- Add the entries of a folder to a tree, at most some levels deep. -/
def addEntries : Nat → Location → Array IO.FS.DirEntry → Tree → IO Tree
  | 0, _, _, tree => pure tree
  | depth + 1, folder, entries, tree =>
      entries.foldlM
        (fun found entry => do
          let place := folder ++ [entry.fileName]
          match (← entry.path.metadata).type with
          | .dir => addEntries depth place (← entry.path.readDir) (found.put place .folder)
          | .file =>
              let content ← IO.FS.readBinFile entry.path
              pure (found.put place (.file content.toList true))
          | _ => pure found)
        tree

/-- Write back the files that differ from the snapshot. -/
def writeBack (before after : Tree) : IO Unit :=
  after.nodes.forM fun (location, node) => do
    if before.node? location ≠ some node then
      match node with
      | .folder => IO.FS.createDirAll location.path
      | .file content _ => IO.FS.writeBinFile location.path ⟨content.toArray⟩
      | .link _ | .program _ | .device _ => pure ()

def currentEnvironment : IO Environment := do
  pure
    { language := ← IO.getEnv "LANGUAGE"
      lcAll := ← IO.getEnv "LC_ALL"
      lcMessages := ← IO.getEnv "LC_MESSAGES"
      lang := ← IO.getEnv "LANG"
      noColor := ← IO.getEnv "NO_COLOR"
      cliColor := ← IO.getEnv "CLICOLOR"
      cliColorForce := ← IO.getEnv "CLICOLOR_FORCE" }

end CaseHarness

open CaseHarness in
/-- Run the harness on the words of the command line.  A process that is broken off ends by
signal 6. -/
def main (words : List String) : IO UInt32 := do
  let current ← IO.currentDir
  let directory := Path.names current.toString
  let files ← addEntries snapshotDepth directory (← current.readDir)
    (Shell.systemTree.makeFolders directory)
  let environment ← currentEnvironment
  let clock ← IO.monoNanosNow
  let (final, status) := Harness.run (Shell.launcher { clock := clock }) environment
    (CommandLine.programName :: words) { files := files, directory := directory }
  writeBack files final.files
  IO.print (final.output environment.forcesColor)
  IO.eprint final.errors
  match status with
  | .exited code => pure (UInt32.ofNat code)
  | .aborted => pure 134
  | .endless => pure 1
