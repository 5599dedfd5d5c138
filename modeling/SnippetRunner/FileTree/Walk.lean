import SnippetRunner.FileTree.Basic

/-!
Finding what a path names. A walk goes name by name from a directory, follows at most forty
symbolic links, and ends at an entry or at a name that is free in an existing directory.
-/
namespace SnippetRunner.FileTree

inductive Place
  | existing (loc : Location) (entry : Entry)
  | vacant (parent : Location) (name : String)
  deriving DecidableEq, Repr

def Place.location : Place → Location
  | .existing loc _ => loc
  | .vacant parent name => parent ++ [name]

def Place.entry? : Place → Option Entry
  | .existing _ e => some e
  | .vacant _ _ => none

def linkBudget : Nat := 40

def maxNameOctets : Nat := 255

def maxPathOctets : Nat := 4096

def targetStart (here : Location) (target : String) : Location :=
  if target.startsWith "/" then [] else here

/-- Walks the names from `here`; the last link is followed when `follow` is set. -/
def walkFrom (t : FileTree) (follow : Bool) (budget : Nat) (here : Location)
    (names : List String) : Except FileError Place :=
  match names with
  | [] =>
    match t.find? here with
    | some entry => .ok (.existing here entry)
    | none => .error .noEntry
  | name :: rest =>
    match t.find? here with
    | some .directory =>
      if name == ".." then walkFrom t follow budget (parentOf here) rest
      else if name.utf8ByteSize > maxNameOctets then .error .nameTooLong
      else
        match t.find? (here ++ [name]) with
        | none => if rest.isEmpty then .ok (.vacant here name) else .error .noEntry
        | some (.link target) =>
          if rest.isEmpty && !follow then .ok (.existing (here ++ [name]) (.link target))
          else
            match budget with
            | 0 => .error .linkLoop
            | more + 1 =>
              if target == "" then .error .noEntry
              else walkFrom t follow more (targetStart here target) (Path.partsOf target ++ rest)
        | some _ => walkFrom t follow budget (here ++ [name]) rest
    | some _ => .error .notDirectory
    | none => .error .noEntry
  termination_by (budget, names.length)

section WalkFrom

variable {t : FileTree} {follow : Bool} {budget : Nat} {here : Location} {name : String}
  {rest names : List String}

theorem walkFrom_up (hhere : t.find? here = some .directory) :
    walkFrom t follow budget here (".." :: rest) =
      walkFrom t follow budget (parentOf here) rest := by
  rw [walkFrom, hhere]
  simp

theorem walkFrom_enter {e : Entry} (hhere : t.find? here = some .directory)
    (hdots : name ≠ "..") (hsize : name.utf8ByteSize ≤ maxNameOctets)
    (he : t.find? (here ++ [name]) = some e) (hlink : ∀ target, e ≠ .link target) :
    walkFrom t follow budget here (name :: rest) =
      walkFrom t follow budget (here ++ [name]) rest := by
  rw [walkFrom, hhere]
  simp only [beq_iff_eq, hdots, if_false, he]
  rw [if_neg (by omega)]

theorem walkFrom_target {target : String} (hfollow : rest.isEmpty = true → follow = true)
    (hhere : t.find? here = some .directory) (hdots : name ≠ "..")
    (hsize : name.utf8ByteSize ≤ maxNameOctets)
    (hlink : t.find? (here ++ [name]) = some (.link target)) (hempty : target ≠ "") :
    walkFrom t follow (budget + 1) here (name :: rest) =
      walkFrom t follow budget (targetStart here target) (Path.partsOf target ++ rest) := by
  have hgoes : (rest.isEmpty && !follow) = false := by
    cases hrest : rest.isEmpty with
    | false => rfl
    | true => simp [hfollow hrest]
  rw [walkFrom, hhere]
  simp only [beq_iff_eq, hdots, if_false, hlink, hgoes, hempty]
  rw [if_neg (by omega)]
  simp

/-- A walk ends at an entry of the tree, or at a name that is free there. -/
theorem walkFrom_ok {place : Place} (h : walkFrom t follow budget here names = .ok place) :
    t.find? place.location = place.entry? := by
  fun_induction walkFrom t follow budget here names with
  | case1 => cases h; assumption
  | case3 => simp_all
  | case5 => cases h; assumption
  | case7 => cases h; assumption
  | case10 => simp_all
  | case11 => simp_all
  | _ => cases h

end WalkFrom

def startOf (cwd : Location) (p : Path) : Location :=
  if p.isAbsolute then [] else cwd

def walk (t : FileTree) (cwd : Location) (follow : Bool) (p : Path) : Except FileError Place :=
  if p.hasNul then .error .nullByte
  else if p.toString.utf8ByteSize ≥ maxPathOctets then .error .nameTooLong
  else walkFrom t follow linkBudget (startOf cwd p) p.parts

def stat (t : FileTree) (cwd : Location) (p : Path) : Except FileError (Location × Entry) :=
  match walk t cwd true p with
  | .ok (.existing loc entry) => .ok (loc, entry)
  | .ok (.vacant _ _) => .error .noEntry
  | .error e => .error e

/-- A question about an entry; whatever means absence answers no. -/
def ask (t : FileTree) (cwd : Location) (p : Path) (test : Entry → Bool) :
    Except FileError Bool :=
  match stat t cwd p with
  | .ok (_, entry) => .ok (test entry)
  | .error e => if e.meansAbsent then .ok false else .error e

def isDirectoryEntry : Entry → Bool
  | .directory => true
  | _ => false

def isFileEntry : Entry → Bool
  | .file _ _ => true
  | _ => false

def isDirectory (t : FileTree) (cwd : Location) (p : Path) : Except FileError Bool :=
  ask t cwd p isDirectoryEntry

end SnippetRunner.FileTree
