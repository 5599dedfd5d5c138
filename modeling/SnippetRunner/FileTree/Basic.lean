import SnippetRunner.FileTree.Error
import SnippetRunner.Path

/-!
A file tree as the list of its entries. Each entry has a location, the names from the root
down to it, and is a directory, a file with its octets, a symbolic link, or a device. The
order of the list is the order in which a directory is enumerated; the root has no entry and
is always there.
-/
namespace SnippetRunner

abbrev Location := List String

inductive Device
  | null
  | zero
  deriving DecidableEq, Repr

inductive Entry
  | directory
  | file (octets : List UInt8) (executable : Bool)
  | link (target : String)
  | device (kind : Device)
  deriving DecidableEq, Repr

structure FileTree where
  entries : List (Location × Entry)
  deriving Repr

namespace FileTree

def empty : FileTree := ⟨[]⟩

def find? (t : FileTree) (loc : Location) : Option Entry :=
  if loc.isEmpty then some .directory else t.entries.lookup loc

def parentOf (loc : Location) : Location := loc.dropLast

def children (t : FileTree) (loc : Location) : List (String × Entry) :=
  t.entries.filterMap fun e =>
    match e.1.getLast? with
    | some name => if parentOf e.1 == loc then some (name, e.2) else none
    | none => none

def insert (t : FileTree) (loc : Location) (entry : Entry) : FileTree :=
  if t.entries.any (·.1 == loc) then
    ⟨t.entries.map fun e => if e.1 == loc then (loc, entry) else e⟩
  else ⟨t.entries ++ [(loc, entry)]⟩

def removeAll (t : FileTree) (loc : Location) : FileTree :=
  ⟨t.entries.filter fun e => !loc.isPrefixOf e.1⟩

def linkTargets (t : FileTree) : List String :=
  t.entries.filterMap fun e =>
    match e.2 with
    | .link target => some target
    | _ => none

end FileTree

end SnippetRunner
