import SnippetRunner.FileTree.Edit
import SnippetRunner.Settings

/-!
The surroundings of a run: a file tree, the current directory in it, the environment, and the
leave that the process lacks. Looking for context only reads them.
-/
namespace SnippetRunner

/-- What is closed to the process: directories in which it may look nothing up, and files and
directories that it may not read. -/
structure Bars where
  search : List Location := []
  read : List Location := []
  deriving DecidableEq, Repr

structure Site where
  tree : FileTree
  cwd : Location
  env : Environment
  bars : Bars := {}
  deriving Repr

namespace Site

def stat (s : Site) (p : Path) : Except FileError (Location × Entry) :=
  s.tree.statWithin s.bars.search s.cwd p

/-- A question about an entry; whatever means absence answers no. -/
def ask (s : Site) (p : Path) (test : Entry → Bool) : Except FileError Bool :=
  match s.stat p with
  | .ok (_, entry) => .ok (test entry)
  | .error e => if e.meansAbsent then .ok false else .error e

def readOctets (s : Site) (p : Path) : Except FileError (List UInt8) :=
  match s.stat p with
  | .ok (loc, .file octets _) =>
    if s.bars.read.contains loc then .error .access else .ok octets
  | .ok (_, .directory) => .error .isDirectory
  | .ok (_, _) => .ok []
  | .error e => .error e

/-- A text file: invalid octets replaced, line ends made line feeds. -/
def readText (s : Site) (p : Path) : Except FileError String :=
  (s.readOctets p).map fun octets => Text.normalizeNewlines (Text.decodeUtf8 octets)

def pathExists (s : Site) (p : Path) : Except Failure Bool :=
  (s.ask p fun _ => true).mapError (Failure.ofFile p)

def isDirectory (s : Site) (p : Path) : Except Failure Bool :=
  (s.ask p FileTree.isDirectoryEntry).mapError (Failure.ofFile p)

def isFile (s : Site) (p : Path) : Except Failure Bool :=
  (s.ask p FileTree.isFileEntry).mapError (Failure.ofFile p)

def listNames (s : Site) (p : Path) : Except FileError (List String) :=
  match s.stat p with
  | .ok (loc, .directory) =>
    if s.bars.read.contains loc then .error .access else .ok ((s.tree.children loc).map (·.1))
  | .ok (_, _) => .error .notDirectory
  | .error e => .error e

/-- What the listing of its directory tells of an entry without looking at it. -/
def listedAs (s : Site) (p : Path) : Option Entry :=
  match s.tree.walkFrom false FileTree.linkBudget (FileTree.startOf s.cwd p) p.parts with
  | .ok (.existing _ entry) => some entry
  | _ => none

def resolve (s : Site) (p : Path) : Except Failure Path :=
  (s.tree.resolve s.bars.search s.cwd p).mapError Failure.ofResolve

def currentDirectory (s : Site) : Path := FileTree.pathOf s.cwd

end Site

end SnippetRunner
