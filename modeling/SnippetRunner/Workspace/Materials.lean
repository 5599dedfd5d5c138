import SnippetRunner.Workspace.Directory
import SnippetRunner.Workspace.Render

/-!
The files written for a run, as the commands of its language see them.
-/
namespace SnippetRunner

structure Materials where
  workdir : Path
  main : Path
  /-- The main file and the files kept beside it. -/
  sources : List Path
  libraries : List Path
  /-- Directories in which the user's own modules are looked for. -/
  searchPaths : List Path
  deriving DecidableEq, Repr

namespace Materials

def binary (m : Materials) : Except Failure Path :=
  match m.main.withSuffix? "" with
  | some p => .ok p
  | none => .error (.noName m.main)

def classpath (m : Materials) : String :=
  String.intercalate ":" (m.workdir.toString :: m.libraries.map Path.toString)

end Materials

namespace Workspace

/-- Writes whole files of the project into their places, in order. -/
def saveMirrored (w : Workspace) (language : String) : List Fragment → Files (List Path)
  | [] => return []
  | f :: rest =>
    match f.relativePath with
    | none => saveMirrored w language rest
    | some relative => do
      let saved ← w.save language relative f.text
      return saved :: (← saveMirrored w language rest)

/-- Writes the files of a snippet: the rendered main file, then the files kept beside it. -/
def materialize (w : Workspace) (s : Snippet) : Files Materials := do
  let text ← (s.render : Except Failure String)
  let main ← w.save s.descriptor.name (.ofString s.descriptor.mainFile) text
  let mirrored ← w.saveMirrored s.descriptor.name (s.ofProvenance .projectScope)
  let searchPaths ← (s.searchPaths (w.site (← get)) : Except Failure (List Path))
  return {
    workdir := main.parent
    main
    sources := main :: mirrored
    libraries := s.libraries
    searchPaths }

end Workspace

end SnippetRunner
