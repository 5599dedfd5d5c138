import SnippetRunner.Selection.InFile
import SnippetRunner.Selection.Snippet

/-!
Definitions that a selection needs from other files of its project. The current file comes
first; then the first file in order of discovery that can be read and defines the name. A
definition is copied with the imports of its file, or its whole file is kept beside the main
one, according to the layout of the language.
-/
namespace SnippetRunner.Selection

open Source

structure ProjectFile where
  source : SourceFile
  definitions : List Definition

abbrev Loaded := Path × Except Failure ProjectFile

structure Gathered where
  fileDefinitions : List Definition
  fragments : List Fragment
  imports : List Fragment

structure ProjectScope where
  descriptor : Descriptor
  root : Path
  surrounding : Surrounding
  files : List Loaded

namespace ProjectScope

def readable (s : ProjectScope) : List ProjectFile :=
  s.files.filterMap fun f =>
    match f.2 with
    | .ok file => some file
    | .error _ => none

/-- The first file that defines a name, with its first definition of it. -/
def find? (s : ProjectScope) (name : String) : Option (ProjectFile × Definition) :=
  s.readable.findSome? fun file =>
    (file.definitions.find? fun d => d.name == name).map fun d => (file, d)

/-- The unreadable files that were passed over in looking for a name. -/
def passedOver (s : ProjectScope) (name : String) : List (Path × Failure) :=
  go s.files
where
  go : List Loaded → List (Path × Failure)
    | [] => []
    | (path, .error e) :: rest => (path, e) :: go rest
    | (_, .ok file) :: rest =>
      if file.definitions.any fun d => d.name == name then [] else go rest

def isLocal (s : ProjectScope) (name : String) : Bool :=
  s.surrounding.names.contains name

def names (s : ProjectScope) : List String :=
  s.surrounding.names ++ s.readable.flatMap fun file => file.definitions.map (·.name)

def importFragments (file : SourceFile) (first last : Int) : List Fragment :=
  (file.imports first last).map fun s => ⟨s.text, .import_, file.path, s.start, none⟩

def wholeFile (s : ProjectScope) (file : SourceFile) : Fragment :=
  ⟨file.text, .projectScope, file.path, 1, file.path.relativeTo? s.root⟩

def follow (s : ProjectScope) (g : Gathered) (name : String) : Lead Gathered :=
  if s.isLocal name then
    let (chosen, missing) := s.surrounding.close g.fileDefinitions [name]
    ⟨{ g with fileDefinitions := chosen }, [], missing⟩
  else
    match s.find? name with
    | none => ⟨g, [], []⟩
    | some (file, d) =>
      match s.descriptor.projectLayout with
      | .mirrored =>
        if g.fragments.any fun f => f.origin == file.source.path then ⟨g, [], []⟩
        else
          ⟨{ g with fragments := g.fragments ++ [s.wholeFile file.source] },
            file.definitions.map (·.name),
            identifiers s.descriptor.blockStyle file.source.text⟩
      | .inline =>
        ⟨{ g with
            fragments :=
              g.fragments ++ [⟨d.text, .projectScope, file.source.path, d.start, none⟩]
            imports := g.imports ++ importFragments file.source 0 (-1) },
          [], Surrounding.references s.descriptor.blockStyle name d.text⟩

def orderOf (s : ProjectScope) (path : Path) : Nat :=
  s.files.findIdx fun f => f.1 == path

def fragmentLe (s : ProjectScope) (a b : Fragment) : Bool :=
  let (i, j) := (s.orderOf a.origin, s.orderOf b.origin)
  i < j || (i == j && a.line ≤ b.line)

/-- What some names need from the file and the project, the names found in neither, and the
unreadable files met on the way. -/
def close (s : ProjectScope) (g : Gathered) (wanted : List String) :
    Gathered × List String × List (Path × Failure) :=
  let c := Chase.run s.names s.follow (.start g) (sortNames wanted)
  let searched := c.visited.reverse.filter fun n => !s.isLocal n
  ({ c.state with fragments := c.state.fragments.mergeSort s.fragmentLe },
    c.missing, searched.flatMap s.passedOver)

end ProjectScope

end SnippetRunner.Selection
