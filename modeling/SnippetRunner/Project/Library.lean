import SnippetRunner.Project.Glob

/-!
Library files. Those that match a pattern below the project root come first, pattern by
pattern; then those in the system's directories that have the suffix of a pattern. Within a
pattern or a directory the order is that of the paths, and a file that is reached in several
ways is listed once, by its real path, where it is met first.
-/
namespace SnippetRunner.Project

/-- Adds the regular files among some paths, in path order, that are not listed yet. -/
def addLibraries (s : Site) (found : List Path) (paths : List Path) :
    Except Failure (List Path) :=
  (paths.mergeSort Path.le).foldlM
    (fun found p => do
      let real ← s.resolve p
      if found.contains real then return found
      else if ← s.isFile p then return found ++ [real]
      else return found)
    found

/-- The suffixes that library files may have outside the project. -/
def librarySuffixes (globs : List String) : List String :=
  (globs.map fun pattern => (Path.ofString pattern).suffix).filter (· != "")

def systemCandidates (s : Site) (suffixes : List String) (directory : Path) :
    Except Failure (List Path) := do
  if ← s.isDirectory directory then
    let names ← entryNames s directory
    return (names.map directory.entry).filter fun p => suffixes.contains p.suffix
  else return []

/-- The library files of a project and of the system, up to a limit; a negative limit leaves
out so many at the end. -/
def libraries (s : Site) (root : Option Path) (globs : List String) (systemDirs : List Path)
    (limit : Int) : Except Failure (List Path) := do
  let inProject ← match root with
    | some root => globs.foldlM (fun found pattern => do
        addLibraries s found (← glob s root pattern)) []
    | none => pure []
  let all ← systemDirs.foldlM (fun found directory => do
    addLibraries s found (← systemCandidates s (librarySuffixes globs) directory)) inProject
  return Text.slice all 0 limit

end SnippetRunner.Project
