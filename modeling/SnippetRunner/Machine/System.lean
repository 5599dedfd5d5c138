import SnippetRunner.Machine.Programs

/-!
The files of a system on which nothing has been done yet: the programs, the shortest way to
them, and the devices that swallow everything and give nothing but zeros.
-/
namespace SnippetRunner.Machine

def systemDirectories : List Location :=
  [["usr"], ["usr", "bin"], ["dev"], ["tmp"]]

def systemTree : FileTree :=
  let t := systemDirectories.foldl (fun t loc => t.insert loc .directory) FileTree.empty
  let t := programNames.foldl
    (fun t name => t.insert ["usr", "bin", name] (.file (imageOf name) true)) t
  ((t.insert ["bin"] (.link "usr/bin")).insert ["dev", "null"] (.device .null)).insert
    ["dev", "zero"] (.device .zero)

end SnippetRunner.Machine
