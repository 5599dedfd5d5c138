import SnippetRunner.FileTree.Edit

/-!
Putting files where there may be no directories yet. What is put may be a file with or without
the leave to be executed, a link, or a directory.
-/
namespace SnippetRunner

inductive Planted
  | octets (content : List UInt8)
  | script (content : String)
  | link (target : String)
  | directory
  deriving DecidableEq, Repr

namespace FileTree

def makeAll (t : FileTree) (cwd : Location) (p : Path) : Except FileFault FileTree :=
  match t.makeDirectories cwd p with
  | (t, none) => .ok t
  | (_, some fault) => .error fault

def linkTo (t : FileTree) (cwd : Location) (p : Path) (target : String) :
    Except FileError FileTree :=
  match t.walk cwd false p with
  | .ok (.vacant parent name) => .ok (t.insert (parent ++ [name]) (.link target))
  | .ok (.existing _ _) => .error .entryExists
  | .error e => .error e

def put (t : FileTree) (cwd : Location) (p : Path) : Planted → Except FileError FileTree
  | .octets content => t.writeOctets cwd p content
  | .script content => do (← t.writeText cwd p content).makeExecutable cwd p
  | .link target => t.linkTo cwd p target
  | .directory => .ok t

/-- Puts something at a path and makes the directories that are missing. -/
def plant (t : FileTree) (cwd : Location) (p : Path) (what : Planted) :
    Except FileFault FileTree := do
  let t ← t.makeAll cwd (if what == .directory then p else p.parent)
  (t.put cwd p what).mapError fun e => .at_ e p.toString

end FileTree

end SnippetRunner
