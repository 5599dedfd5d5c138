import SnippetRunner.Project.Glob

/-!
The disposable work directory. It is made when something needs it, holds one directory for
each language, and only cleaning removes anything from it. An operation that fails keeps what
it had already changed.
-/
namespace SnippetRunner

abbrev Files := ExceptT Failure (StateM FileTree)

structure Workspace where
  base : Path
  /-- Where relative paths start. -/
  cwd : Location
  deriving DecidableEq, Repr

namespace Workspace

/-- The failure that a fault means: one of the directory, unless the path itself is at
fault. -/
def failureOf (kind : FileFault → WorkspaceFault) (fault : FileFault) : Failure :=
  if fault.error.isSystem then .workspaceFailed (kind fault) else .file fault

def makeDirectory (w : Workspace) (p : Path) (kind : FileFault → WorkspaceFault) :
    Files Unit := do
  let (tree, fault) := (← get).makeDirectories w.cwd p
  set tree
  match fault with
  | none => return ()
  | some fault => throw (failureOf kind fault)

def ensure (w : Workspace) : Files Path := do
  w.makeDirectory w.base (.create w.base)
  return w.base

def languageDir (w : Workspace) (language : String) : Path :=
  w.base.child language

def writeFile (w : Workspace) (destination : Path) (content : String) : Files Unit := do
  w.makeDirectory destination.parent (.write destination)
  match (← get).writeText w.cwd destination content with
  | .ok tree => set tree
  | .error e => throw (failureOf (.write destination) (.at_ e destination.toString))

def save (w : Workspace) (language : String) (relative : Path) (content : String) :
    Files Path := do
  let _ ← w.ensure
  let destination := (w.languageDir language).join relative
  w.writeFile destination content
  return destination

/-- Empties the work directory by removing it and making it anew. -/
def clean (w : Workspace) : Files Unit := do
  match (← get).removeTree w.cwd w.base with
  | .ok tree => set tree
  | .error fault =>
    if fault.error != .noEntry then throw (failureOf (.remove w.base) fault)
  let _ ← w.ensure

def site (w : Workspace) (t : FileTree) : Site := ⟨t, w.cwd, [], {}⟩

/-- The files below the work directory, by their paths from it, in order. -/
def list (w : Workspace) (t : FileTree) : Except Failure (List String) := do
  let site := w.site t
  if ← site.pathExists w.base then
    let found ← Project.glob site w.base "**/*"
    let files ← found.filterM site.isFile
    let names := files.map fun p => ((p.relativeTo? w.base).getD p).toString
    return names.mergeSort Path.textLe
  else return []

/-- Nothing is in the work directory, or it is missing. -/
def isEmpty (w : Workspace) (t : FileTree) : Except Failure Bool := do
  let site := w.site t
  if ← site.pathExists w.base then
    let names ← Project.entryNames site w.base
    return names.isEmpty
  else return true

end Workspace

end SnippetRunner
