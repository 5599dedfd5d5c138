import SnippetRunner.FileTree.Walk
import SnippetRunner.Text.Utf8

/-!
Reading and changing the file tree. An operation answers with the new tree or with the
error that leaves the tree as it was; only making several directories may stop half way.
-/
namespace SnippetRunner.FileTree

/-- The octets of a file. A device has none to give. -/
def readOctets (t : FileTree) (cwd : Location) (p : Path) : Except FileError (List UInt8) :=
  match stat t cwd p with
  | .ok (_, .file octets _) => .ok octets
  | .ok (_, .directory) => .error .isDirectory
  | .ok (_, _) => .ok []
  | .error e => .error e

def writeOctets (t : FileTree) (cwd : Location) (p : Path) (octets : List UInt8) :
    Except FileError FileTree :=
  match walk t cwd true p with
  | .ok (.existing loc (.file _ executable)) => .ok (t.insert loc (.file octets executable))
  | .ok (.existing _ .directory) => .error .isDirectory
  | .ok (.existing _ _) => .ok t
  | .ok (.vacant parent name) => .ok (t.insert (parent ++ [name]) (.file octets false))
  | .error e => .error e

def writeText (t : FileTree) (cwd : Location) (p : Path) (text : String) :
    Except FileError FileTree :=
  t.writeOctets cwd p (Text.encodeUtf8 text)

/-- Adds octets at the end of a file, which is created if need be. -/
def appendOctets (t : FileTree) (cwd : Location) (p : Path) (octets : List UInt8) :
    Except FileError FileTree :=
  match walk t cwd true p with
  | .ok (.existing loc (.file old executable)) =>
    .ok (t.insert loc (.file (old ++ octets) executable))
  | _ => t.writeOctets cwd p octets

/-- Makes one directory; a link at its place is in the way. -/
def makeDirectory (t : FileTree) (cwd : Location) (p : Path) : Except FileError FileTree :=
  match walk t cwd false p with
  | .ok (.vacant parent name) => .ok (t.insert (parent ++ [name]) .directory)
  | .ok (.existing _ _) => .error .entryExists
  | .error e => .error e

/-- What a failure to make a directory means: nothing, when a directory is there. -/
def settleMake (t : FileTree) (cwd : Location) (p : Path) (e : FileError) :
    FileTree × Option FileFault :=
  if e == .nullByte then (t, some (.at_ e p.toString))
  else
    match t.isDirectory cwd p with
    | .ok true => (t, none)
    | .ok false => (t, some (.at_ e p.toString))
    | .error e => (t, some (.at_ e p.toString))

/-- Makes a directory and those above it that are missing; one that is there is welcome.
The fault names the directory that could not be made; those made before it stay. -/
def makeDirectories (t : FileTree) (cwd : Location) (p : Path) :
    FileTree × Option FileFault :=
  match t.makeDirectory cwd p with
  | .ok t => (t, none)
  | .error .noEntry =>
    if p.parts.isEmpty then (t, some (.at_ .noEntry p.toString))
    else
      match makeDirectories t cwd p.parent with
      | (t, some fault) => (t, some fault)
      | (t, none) =>
        match t.makeDirectory cwd p with
        | .ok t => (t, none)
        | .error e => settleMake t cwd p e
  | .error e => settleMake t cwd p e
  termination_by p.parts.length
  decreasing_by
    cases p with
    | mk anchor parts =>
      cases parts with
      | nil => simp_all
      | cons a as => simp [Path.parent]

/-- Removes a directory with everything in it; a link at its place is refused. -/
def removeTree (t : FileTree) (cwd : Location) (p : Path) : Except FileFault FileTree :=
  match walk t cwd false p with
  | .ok (.existing loc .directory) => .ok (t.removeAll loc)
  | .ok (.existing _ (.link _)) =>
    match stat t cwd p with
    | .ok _ => .error (.at_ .linkAtTop p.toString)
    | .error e => .error (.at_ e p.toString)
  | .ok (.existing _ _) => .error (.below .notDirectory p.toString)
  | .ok (.vacant _ _) => .error (.at_ .noEntry p.toString)
  | .error e => .error (.at_ e p.toString)

def removeFile (t : FileTree) (cwd : Location) (p : Path) : Except FileError FileTree :=
  match walk t cwd false p with
  | .ok (.existing _ .directory) => .error .isDirectory
  | .ok (.existing loc _) => .ok (t.removeAll loc)
  | .ok (.vacant _ _) => .error .noEntry
  | .error e => .error e

/-- Moves a file over another one; a directory is not replaced. -/
def replaceFile (t : FileTree) (cwd : Location) (source target : Path) :
    Except FileError FileTree :=
  match walk t cwd false source, walk t cwd false target with
  | .ok (.existing from_ entry), .ok (.existing onto .directory) =>
    if entry == .directory && from_ != onto then .error .notEmpty else .error .isDirectory
  | .ok (.existing from_ entry), .ok (.existing onto _) =>
    if from_ == onto then .ok t else .ok ((t.removeAll from_).insert onto entry)
  | .ok (.existing from_ entry), .ok (.vacant parent name) =>
    .ok ((t.removeAll from_).insert (parent ++ [name]) entry)
  | .ok (.vacant _ _), _ => .error .noEntry
  | .error e, _ => .error e
  | _, .error e => .error e

def makeExecutable (t : FileTree) (cwd : Location) (p : Path) : Except FileError FileTree :=
  match stat t cwd p with
  | .ok (loc, .file octets _) => .ok (t.insert loc (.file octets true))
  | .ok _ => .ok t
  | .error e => .error e

def filesBelow (t : FileTree) (loc : Location) : List Location :=
  t.entries.filterMap fun e => if loc.isPrefixOf e.1 && isFileEntry e.2 then some e.1 else none

/-- The regular files below a location, by their paths from it, in order. -/
def relativeFiles (t : FileTree) (loc : Location) : List String :=
  ((t.filesBelow loc).map fun f => String.intercalate "/" (f.drop loc.length)).mergeSort
    Path.textLe

end SnippetRunner.FileTree
