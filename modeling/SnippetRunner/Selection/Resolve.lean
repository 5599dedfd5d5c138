import SnippetRunner.Project.Library
import SnippetRunner.Project.Listing
import SnippetRunner.Project.Root
import SnippetRunner.Selection.InProject

/-!
From a request to a snippet. Each level adds to the one below: the first line alone, the
dedented range, the imports of the file, its definitions, those of the project, and the
libraries. A name that is not found is recorded and never an error; only the request itself
can be refused, for its range or because its file cannot be read.
-/
namespace SnippetRunner.Selection

open Source

/-- Bounds of the search for context, and further directories of libraries. -/
structure Limits where
  rootSearchDepth : Int := 10
  projectMaxDepth : Int := 6
  projectMaxFiles : Int := 200
  libraryPaths : List Path := []
  deriving Repr

def Limits.ofSettings (s : Settings) : Limits :=
  ⟨s.rootSearchDepth, s.projectMaxDepth, s.projectMaxFiles, s.libraryPaths⟩

/-- A snippet, and the project files that were passed over because they cannot be read. -/
structure Resolution where
  snippet : Snippet
  passedOver : List (Path × Failure)

def readSource (s : Site) (p : Path) (d : Descriptor) : Except Failure SourceFile :=
  match s.readText p with
  | .ok text => .ok (.ofText p d text)
  | .error .noEntry => .error (.sourceUnavailable (.missing p))
  | .error .nullByte => .error (Failure.ofFile p .nullByte)
  | .error e => .error (.sourceUnavailable (.unreadable p (.at_ e p.toString)))

/-- Of fragments with the same text but for blanks around it the first one stays. -/
def dedupe (fragments : List Fragment) : List Fragment :=
  go [] fragments
where
  go (seen : List String) : List Fragment → List Fragment
    | [] => []
    | f :: rest =>
      let key := Text.strip f.text
      if seen.contains key then go seen rest else f :: go (key :: seen) rest

def fileFragment (source : SourceFile) (d : Definition) : Fragment :=
  ⟨d.text, .fileScope, source.path, d.start, none⟩

def definitionLe (a b : Definition) : Bool :=
  a.start ≤ b.start

def wantedNames (d : Descriptor) (selection : String) : List String :=
  let defined := d.definedNames selection
  (identifiers d.blockStyle selection).filter fun n => !defined.contains n

def loadProject (s : Site) (d : Descriptor) (files : List Path) : List Loaded :=
  files.map fun p => (p, (readSource s p d).map fun f => ⟨f, f.definitions⟩)

structure Context where
  gathered : Gathered
  root : Option Path
  missing : List String
  passedOver : List (Path × Failure)

/-- The definitions that a selection needs at the level of the file or above. -/
def findContext (s : Site) (limits : Limits) (source : SourceFile) (first last : Int)
    (level : Level) (selection : String) (imports : List Fragment) :
    Except Failure Context := do
  let d := source.descriptor
  let around : Surrounding := ⟨d.blockStyle, source.definitions, first, last⟩
  let (chosen, missing) := around.close [] (wantedNames d selection)
  let gathered : Gathered := ⟨chosen, [], imports⟩
  if level.atLeast .project then
    match ← Project.findRoot s source.path.parent d.projectMarkers limits.rootSearchDepth with
    | none => return ⟨gathered, none, missing, []⟩
    | some root =>
      let files ← Project.sourceFiles s root d.extension limits.projectMaxDepth
        limits.projectMaxFiles (some source.path)
      let scope : ProjectScope := ⟨d, root, around, loadProject s d files⟩
      let (gathered, missing, passedOver) := scope.close gathered missing
      return ⟨gathered, some root, missing, passedOver⟩
  else return ⟨gathered, none, missing, []⟩

def lineSnippet (source : SourceFile) (first last : Int) (level : Level) : Snippet where
  descriptor := source.descriptor
  level := level
  fragments :=
    [⟨Text.strip (source.rangeText first first), .selection, source.path, first, none⟩]
  misses := if last > first then [⟨s!"lines {first + 1}-{last}", level⟩] else []

/-- The snippet of a valid range of a file above the level of a line. -/
def blockSnippet (s : Site) (limits : Limits) (source : SourceFile) (first last : Int)
    (level : Level) : Except Failure Resolution := do
  let d := source.descriptor
  let selection := source.rangeText first last
  let selected : Fragment := ⟨selection, .selection, source.path, first, none⟩
  let imports :=
    if level.atLeast .import_ then ProjectScope.importFragments source first last else []
  let context ←
    if level.atLeast .file then findContext s limits source first last level selection imports
    else pure ⟨⟨[], [], imports⟩, none, [], []⟩
  let libraries ←
    if level.atLeast .system then
      Project.libraries s context.root d.libraryGlobs
        (d.systemLibraryDirs.map Path.ofString ++ limits.libraryPaths) limits.projectMaxFiles
    else pure []
  let definitions := context.gathered.fileDefinitions.mergeSort definitionLe
  return {
    snippet := {
      descriptor := d
      level
      fragments :=
        dedupe context.gathered.imports ++ context.gathered.fragments ++
          definitions.map (fileFragment source) ++ [selected]
      libraries
      projectRoot := context.root
      misses := (sortNames context.missing).map fun n => ⟨n, level⟩ }
    passedOver := context.passedOver }

/-- Resolves a request at a level, but at most the level of its language. -/
def resolve (s : Site) (limits : Limits) (request : RunRequest) (d : Descriptor)
    (level : Level) : Except Failure Resolution := do
  let level := level.lower d.level
  if request.first < 1 || request.last < request.first then
    throw (.invalidRequest (.badRange request.first request.last))
  let source ← readSource s (← request.sourcePath s.env) d
  let count : Int := source.length
  let first := request.first
  let last := min request.last count
  if first > count then
    throw (.invalidRequest (.pastEnd first source.path source.length))
  if level.atLeast .bloc then blockSnippet s limits source first last level
  else return ⟨lineSnippet source first last level, []⟩

end SnippetRunner.Selection
