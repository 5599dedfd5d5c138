import SnippetRunner.Site

/-!
The source files of a project in their order of discovery: directories level by level, the
entries of each in the order of their names. Hidden entries and the usual places of derived
files are passed over, and both the depth and the number of files are bounded.
-/
namespace SnippetRunner.Project

def skippedDirectories : List String :=
  ["node_modules", "__pycache__", "venv", "env", "target", "build", "dist", "vendor",
   "site-packages"]

/-- What is looked for, and the file that is left out. -/
structure Search where
  extension : String
  excluded : Option Path
  deriving DecidableEq, Repr

/-- Files found and directories to descend into, each in its order. -/
structure Harvest where
  files : List Path
  directories : List Path
  deriving DecidableEq, Repr

def Harvest.none : Harvest := ⟨[], []⟩

def Harvest.append (a b : Harvest) : Harvest :=
  ⟨a.files ++ b.files, a.directories ++ b.directories⟩

def isHidden (name : String) : Bool :=
  name.startsWith "."

def scanEntry (s : Site) (search : Search) (entry : Path) : Except Failure Harvest := do
  if isHidden entry.name then return .none
  else if ← s.isDirectory entry then
    if skippedDirectories.contains entry.name then return .none else return ⟨[], [entry]⟩
  else if entry.suffix == search.extension then
    let real ← s.resolve entry
    if some real == search.excluded then return .none else return ⟨[entry], []⟩
  else return .none

/-- Scans entries until the room for files is used up. -/
def scanEntries (s : Site) (search : Search) : Nat → List Path → Except Failure Harvest
  | 0, _ => .ok .none
  | _, [] => .ok .none
  | room + 1, entry :: rest => do
    let here ← scanEntry s search entry
    let more ← scanEntries s search (room + 1 - here.files.length) rest
    return here.append more

/-- The entries of a directory by name; a directory that cannot be read has none. -/
def sortedEntries (s : Site) (directory : Path) : Except Failure (List Path) :=
  match s.listNames directory with
  | .ok names => .ok ((names.mergeSort Path.textLe).map directory.entry)
  | .error e => if e.isSystem then .ok [] else .error (Failure.ofFile directory e)

/-- Scans the directories of one level until the room is used up. -/
def scanLevel (s : Site) (search : Search) : Nat → List Path → Except Failure Harvest
  | 0, _ => .ok .none
  | _, [] => .ok .none
  | room + 1, directory :: rest => do
    let here ← scanEntries s search (room + 1) (← sortedEntries s directory)
    let more ← scanLevel s search (room + 1 - here.files.length) rest
    return here.append more

def scanLevels (s : Site) (search : Search) : Nat → Nat → List Path → Except Failure (List Path)
  | 0, _, _ => .ok []
  | _, 0, _ => .ok []
  | levels + 1, room + 1, directories => do
    let here ← scanLevel s search (room + 1) directories
    if here.directories.isEmpty then return here.files
    else
      let more ← scanLevels s search levels (room + 1 - here.files.length) here.directories
      return here.files ++ more

/-- The first `maxFiles` source files below a directory, at most `maxDepth` levels down. -/
def sourceFiles (s : Site) (root : Path) (extension : String) (maxDepth maxFiles : Int)
    (exclude : Option Path) : Except Failure (List Path) := do
  let excluded ← match exclude with
    | some p => some <$> s.resolve p
    | none => pure none
  scanLevels s ⟨extension, excluded⟩ (maxDepth.toNat + 1) maxFiles.toNat [root]

end SnippetRunner.Project
