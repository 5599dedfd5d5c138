import SnippetRunner.Site

/-!
The root of a project: the nearest directory at or above a place that holds one of the
markers, looked for only so many steps upward.
-/
namespace SnippetRunner.Project

def ancestors (p : Path) : List Path :=
  (List.range (p.parts.length + 1)).map fun n => ⟨p.anchor, p.parts.take (p.parts.length - n)⟩

def holdsMarker (s : Site) (directory : Path) : List String → Except Failure Bool
  | [] => .ok false
  | marker :: rest => do
    if ← s.pathExists (directory.child marker) then return true
    else holdsMarker s directory rest

def firstMarked (s : Site) (markers : List String) : List Path → Except Failure (Option Path)
  | [] => .ok none
  | directory :: rest => do
    if ← holdsMarker s directory markers then return some directory
    else firstMarked s markers rest

def findRoot (s : Site) (start : Path) (markers : List String) (maxDepth : Int) :
    Except Failure (Option Path) := do
  let directory ← s.resolve start
  firstMarked s markers ((ancestors directory).take (maxDepth + 1).toNat)

end SnippetRunner.Project
