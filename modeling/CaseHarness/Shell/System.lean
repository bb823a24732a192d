import CaseHarness.Shell.Utility
import CaseHarness.Shell.Utility.Wrapper

/-!
# The system tree

The folders, programs and devices that are there before anything else is put
into a tree.
-/

namespace CaseHarness.Shell

/-- The folder that holds the programs of the system. -/
def programFolder : Location :=
  ["usr", "bin"]

/-- The folders of a system, those above others first. -/
def folders : List Location :=
  [["boot"], ["dev"], ["dev", "fd"], ["dev", "shm"], ["etc"], ["home"], ["media"], ["mnt"], ["opt"],
    ["proc"], ["proc", "self"], ["root"], ["run"], ["srv"], ["sys"], ["tmp"], ["usr"],
    programFolder, ["usr", "include"], ["usr", "lib"], ["usr", "local"], ["usr", "local", "bin"],
    ["usr", "local", "lib"], ["usr", "local", "sbin"], ["usr", "sbin"], ["usr", "share"],
    ["usr", "src"], ["var"], ["var", "lib"], ["var", "log"], ["var", "tmp"]]

/-- The symbolic links of a system. -/
def links : List (Location × String) :=
  [(["bin"], "usr/bin"), (["lib"], "usr/lib"), (["sbin"], "usr/sbin")]

/-- The files of a system that are no programs, with their texts as far as they are known. -/
def files : List (Location × String) :=
  [(["etc", "passwd"], "root:x:0:0:root:/root:/bin/bash\n"), (["etc", "group"], "root:x:0:\n"),
    (["etc", "hosts"], "127.0.0.1\tlocalhost\n"), (["etc", "hostname"], ""),
    (["etc", "profile"], ""), (["etc", "resolv.conf"], ""), (["etc", "shadow"], ""),
    (["proc", "cpuinfo"], ""), (["proc", "meminfo"], ""), (["proc", "version"], "")]

def devices : List (Location × Device) :=
  [(["dev", "null"], .null), (["dev", "full"], .full), (["dev", "zero"], .zero),
    (["dev", "random"], .zero), (["dev", "urandom"], .zero), (["dev", "tty"], .terminal),
    (["dev", "stdin"], .descriptor 0 []), (["dev", "stdout"], .descriptor 1 []),
    (["dev", "stderr"], .descriptor 2 [])] ++
  (List.range 10).map fun number =>
    (["dev", "fd", Text.Numeral.decimal number], .descriptor number [])

/-- The tree of a system without any other files. -/
def systemTree : Tree :=
  let built : Tree := folders.foldl (fun tree location => tree.put location .folder) {}
  let linked := links.foldl (fun tree (location, target) => tree.put location (.link target)) built
  let filled := files.foldl
    (fun tree (location, text) => tree.put location (.file (Text.Utf8.encode text) false)) linked
  let equipped := devices.foldl (fun tree (location, device) => tree.put location (.device device))
    (filled.put ["proc", "self", "exe"] (.file [] true))
  ("sh" :: "dash" :: Utility.programs ++ Utility.wrappers).foldl
    (fun tree name => tree.put (programFolder ++ [name]) (.program name)) equipped

end CaseHarness.Shell
