import SnippetRunner.Site
import SnippetRunner.Text.Wildcard

/-!
Searching for paths by a pattern. The pattern is taken name by name: a plain name must
exist, a wildcard ranges over the entries of a directory, and a double star over the
directory and everything below it that is not behind a link. What the process may not look at is
passed over, and with it, where a wildcard asks its entries, the rest of their directory.
-/
namespace SnippetRunner.Project

inductive GlobPart
  | exact (name : String)
  | wildcard (pattern : String)
  | anyDepth
  deriving DecidableEq, Repr

def globPart (name : String) : Except GlobFault GlobPart :=
  if name == "**" then .ok .anyDepth
  else if Text.hasDoubleStar name then .error .partialStars
  else if Text.hasWildcard name then .ok (.wildcard name)
  else .ok (.exact name)

/-- The parts of a pattern, and whether only directories are asked for. -/
def globParts (pattern : String) : Except GlobFault (List GlobPart × Bool) := do
  let p := Path.ofString pattern
  let directoriesOnly := pattern.endsWith "/"
  if pattern == "" then throw .empty
  else if p.isAbsolute then throw .absolute
  else if p.parts.isEmpty then throw (if directoriesOnly then .onlySlash else .onlyDot)
  else
    let parts ← p.parts.mapM globPart
    return (parts, directoriesOnly)

def entryNames (s : Site) (directory : Path) : Except Failure (List String) :=
  (s.listNames directory).mapError (Failure.ofFile directory)

/-- The entries of a directory as a search meets them; one that may not be read has none. -/
def scan (s : Site) (directory : Path) : Except Failure (List Path) :=
  match s.listNames directory with
  | .ok names => .ok (names.map directory.entry)
  | .error .access => .ok []
  | .error e => .error (Failure.ofFile directory e)

/-- A listed entry is a directory, or a link that leads to one. -/
def leadsOn (s : Site) (entry : Path) : Except FileError Bool :=
  match s.listedAs entry with
  | some .directory => .ok true
  | some (.link _) => s.ask entry FileTree.isDirectoryEntry
  | _ => .ok false

/-- Goes on from the entries of a directory that match. Where a directory is asked for every entry
is looked at first, and one that the process may not look at ends the search among them. -/
def selectAmong (s : Site) (onlyDirectories : Bool) (fits : String → Bool)
    (select : Path → Except Failure (List Path)) : List Path → Except Failure (List Path)
  | [] => .ok []
  | entry :: rest =>
    match if onlyDirectories then leadsOn s entry else .ok true with
    | .error .access => .ok []
    | .error e => .error (Failure.ofFile entry e)
    | .ok false => selectAmong s onlyDirectories fits select rest
    | .ok true =>
      let here : Except Failure (List Path) := if fits entry.name then select entry else .ok []
      do
        let found ← here
        let more ← selectAmong s onlyDirectories fits select rest
        return found ++ more

/-- Goes on from a directory and all directories below it, links not followed. -/
def selectBelow (s : Site) (select : Path → Except Failure (List Path)) :
    Nat → Path → Except Failure (List Path)
  | 0, directory => select directory
  | fuel + 1, directory => do
    let found ← select directory
    let entries ← scan s directory
    let below := entries.filter fun entry => s.listedAs entry == some .directory
    let more ← below.mapM (selectBelow s select fuel)
    return found ++ more.flatten

/-- Goes on from a path if it is there, and a directory where one is asked for. -/
def selectNext (s : Site) (onlyDirectories : Bool) (select : Path → Except Failure (List Path))
    (next : Path) : Except Failure (List Path) :=
  match s.ask next fun entry => !onlyDirectories || FileTree.isDirectoryEntry entry with
  | .ok true => select next
  | .ok false => .ok []
  | .error .access => .ok []
  | .error e => .error (Failure.ofFile next e)

def selectPaths (s : Site) (directoriesOnly : Bool) : List GlobPart → Path →
    Except Failure (List Path)
  | [], p => .ok [p]
  | .exact name :: rest, p =>
    selectNext s (directoriesOnly || !rest.isEmpty) (selectPaths s directoriesOnly rest)
      (p.entry name)
  | .wildcard pattern :: rest, p => do
    let entries ← scan s p
    selectAmong s (directoriesOnly || !rest.isEmpty) (Text.matchesWildcard pattern)
      (selectPaths s directoriesOnly rest) entries
  | .anyDepth :: rest, p => do
    let found ← selectBelow s (selectPaths s directoriesOnly rest) s.tree.entries.length p
    return found.eraseDups

/-- The paths below a root that match a pattern, in no particular order. -/
def glob (s : Site) (root : Path) (pattern : String) : Except Failure (List Path) := do
  let (parts, directoriesOnly) ← (globParts pattern).mapError .glob
  if ← s.isDirectory root then selectPaths s directoriesOnly parts root else return []

end SnippetRunner.Project
