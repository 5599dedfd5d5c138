import SnippetRunner.Site
import SnippetRunner.Source.Import

/-!
A request to run a range of lines, and the snippet that comes of it: the selected text with
the fragments it needs, each with the place it was taken from, and the names that were not
found.
-/
namespace SnippetRunner

/-- Lines count from one and the last one is included. -/
structure RunRequest where
  file : Path
  first : Int
  last : Int
  scriptDir : Path
  filetype : Option String := none
  level : Option Level := none
  deriving DecidableEq, Repr

/-- The file to read: a tilde is expanded, and a relative path starts at the script's
directory. -/
def RunRequest.sourcePath (r : RunRequest) (env : Environment) : Except Failure Path := do
  let p ← Settings.expandUser env r.file
  return if p.isAbsolute then p else r.scriptDir.join p

inductive Provenance
  | selection
  | import_
  | fileScope
  | projectScope
  deriving DecidableEq, Repr

def Provenance.name : Provenance → String
  | .selection => "selection"
  | .import_ => "import"
  | .fileScope => "file-scope"
  | .projectScope => "project-scope"

/-- A piece of code; one with a relative path is a whole file to be kept in its place. -/
structure Fragment where
  text : String
  provenance : Provenance
  origin : Path
  line : Int
  relativePath : Option Path := none
  deriving DecidableEq, Repr

structure Miss where
  symbol : String
  level : Level
  deriving DecidableEq, Repr

def Miss.message (m : Miss) : String :=
  s!"Could not resolve {Text.quote m.symbol} at {m.level.name} level"

structure Snippet where
  descriptor : Descriptor
  level : Level
  fragments : List Fragment := []
  libraries : List Path := []
  projectRoot : Option Path := none
  misses : List Miss := []
  deriving DecidableEq, Repr

namespace Snippet

def ofProvenance (s : Snippet) (p : Provenance) : List Fragment :=
  s.fragments.filter fun f => f.provenance == p

def code (s : Snippet) : String :=
  Text.joinLines ((s.ofProvenance .selection).map (·.text))

def fragmentPrint (f : Fragment) : String :=
  s!"{f.provenance.name}:{f.origin}:{f.line}\n{f.text}"

def fingerprint (s : Snippet) : String :=
  String.intercalate "\n--\n"
    (s.fragments.map fragmentPrint ++ s.libraries.map fun p => s!"library:{p}")

end Snippet

end SnippetRunner
