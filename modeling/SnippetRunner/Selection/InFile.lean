import SnippetRunner.Selection.Chase

/-!
Definitions that a selection needs from its own file. A name stands for the nearest
definition before the selection, or else for the first one after it; every definition that
is chosen brings in the names it refers to.
-/
namespace SnippetRunner.Selection

open Source

structure Surrounding where
  style : BlockStyle
  definitions : List Definition
  first : Int
  last : Int

namespace Surrounding

def candidatesOf (s : Surrounding) (name : String) : List Definition :=
  candidates s.definitions s.first s.last name

def names (s : Surrounding) : List String :=
  (s.definitions.filter fun d => !d.overlaps s.first s.last).map (·.name)

def references (style : BlockStyle) (name text : String) : List String :=
  (identifiers style text).filter (· != name)

def follow (s : Surrounding) (chosen : List Definition) (name : String) :
    Lead (List Definition) :=
  match pick? (s.candidatesOf name) s.first with
  | some d =>
    if chosen.contains d then ⟨chosen, [], []⟩
    else ⟨chosen ++ [d], [], references s.style name d.text⟩
  | none => ⟨chosen, [], []⟩

/-- The definitions chosen so far with those that some names need, and the names that are
not defined in the file. -/
def close (s : Surrounding) (chosen : List Definition) (wanted : List String) :
    List Definition × List String :=
  let c := Chase.run s.names s.follow (.start chosen) (sortNames wanted)
  (c.state, c.missing)

end Surrounding

end SnippetRunner.Selection
