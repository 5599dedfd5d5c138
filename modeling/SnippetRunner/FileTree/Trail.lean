import SnippetRunner.FileTree.Walk

/-!
The leave that a walk needs. Something can be looked up only in a directory that the process
may search, so that a walk ends at the first directory on its way that is barred to it. The
target of a link may also end in slashes and dots, which ask for a directory where it leads,
and a dot for one that may be searched.
-/
namespace SnippetRunner.FileTree

/-- The directories in which a walk looks something up, and whether it asks for a directory at
its end. -/
structure Trail where
  searched : List Location
  toDirectory : Bool
  deriving DecidableEq, Repr

def Trail.after (trail : Trail) (here : Location) : Trail :=
  { trail with searched := here :: trail.searched }

def Trail.barredBy (trail : Trail) (barred : List Location) : Bool :=
  trail.searched.any barred.contains

@[simp] theorem Trail.barredBy_nil (trail : Trail) : trail.barredBy [] = false := by
  simp [barredBy]

@[simp] theorem Trail.barredBy_after (trail : Trail) (here : Location) (barred : List Location) :
    (trail.after here).barredBy barred = (barred.contains here || trail.barredBy barred) := by
  simp [barredBy, after]

/-- The empty names and dots after the last name of a text. -/
def tailOf (target : String) : List String :=
  (Text.splitAt '/' target).reverse.takeWhile fun name => name == "" || name == "."

/-- The tail after a link to a target. The end of the target counts only where the walk ends
with it. -/
def tailThrough (tail : List String) (target : String) (rest : List String) : List String :=
  if rest.isEmpty then tail ++ tailOf target else tail

/-- The trail of a walk, after the last link of which there stands a tail. -/
def trailFrom (t : FileTree) (follow : Bool) (budget : Nat) (tail : List String)
    (here : Location) (names : List String) : Trail :=
  match names with
  | [] => ⟨if tail.contains "." then [here] else [], !tail.isEmpty⟩
  | name :: rest =>
    match t.find? here with
    | some .directory =>
      if name == ".." then (trailFrom t follow budget tail (parentOf here) rest).after here
      else if name.utf8ByteSize > maxNameOctets then ⟨[here], false⟩
      else
        match t.find? (here ++ [name]) with
        | none => ⟨[here], false⟩
        | some (.link target) =>
          if rest.isEmpty && !follow then ⟨[here], false⟩
          else
            match budget with
            | 0 => ⟨[here], false⟩
            | more + 1 =>
              if target == "" then ⟨[here], false⟩
              else
                (trailFrom t follow more (tailThrough tail target rest)
                  (targetStart here target) (Path.partsOf target ++ rest)).after here
        | some _ => (trailFrom t follow budget tail (here ++ [name]) rest).after here
    | _ => ⟨[], false⟩
  termination_by (budget, names.length)

section TrailFrom

variable {t : FileTree} {follow : Bool} {budget : Nat} {tail : List String} {here : Location}
  {name : String} {rest : List String}

theorem trailFrom_up (hhere : t.find? here = some .directory) :
    trailFrom t follow budget tail here (".." :: rest) =
      (trailFrom t follow budget tail (parentOf here) rest).after here := by
  rw [trailFrom, hhere]
  simp

theorem trailFrom_enter {e : Entry} (hhere : t.find? here = some .directory)
    (hdots : name ≠ "..") (hsize : name.utf8ByteSize ≤ maxNameOctets)
    (he : t.find? (here ++ [name]) = some e) (hlink : ∀ target, e ≠ .link target) :
    trailFrom t follow budget tail here (name :: rest) =
      (trailFrom t follow budget tail (here ++ [name]) rest).after here := by
  rw [trailFrom, hhere]
  simp only [beq_iff_eq, hdots, if_false, he]
  rw [if_neg (by omega)]

theorem trailFrom_target {target : String} (hfollow : rest.isEmpty = true → follow = true)
    (hhere : t.find? here = some .directory) (hdots : name ≠ "..")
    (hsize : name.utf8ByteSize ≤ maxNameOctets)
    (hlink : t.find? (here ++ [name]) = some (.link target)) (hempty : target ≠ "") :
    trailFrom t follow (budget + 1) tail here (name :: rest) =
      (trailFrom t follow budget (tailThrough tail target rest) (targetStart here target)
        (Path.partsOf target ++ rest)).after here := by
  have hgoes : (rest.isEmpty && !follow) = false := by
    cases hrest : rest.isEmpty with
    | false => rfl
    | true => simp [hfollow hrest]
  rw [trailFrom, hhere]
  simp only [beq_iff_eq, hdots, if_false, hlink, hgoes, hempty]
  rw [if_neg (by omega)]
  simp

end TrailFrom

/-- The trail of a path. The empty path is walked as a dot. -/
def trail (t : FileTree) (cwd : Location) (p : Path) : Trail :=
  trailFrom t true linkBudget (if p == Path.current then ["."] else []) (startOf cwd p) p.parts

/-- The entry that a path names, for a process to which some directories are barred. -/
def statWithin (t : FileTree) (barred : List Location) (cwd : Location) (p : Path) :
    Except FileError (Location × Entry) :=
  if p.hasNul then .error .nullByte
  else if p.toString.utf8ByteSize ≥ maxPathOctets then .error .nameTooLong
  else if (trail t cwd p).barredBy barred then .error .access
  else
    match stat t cwd p with
    | .ok (loc, entry) =>
      if (trail t cwd p).toDirectory && entry != .directory then .error .notDirectory
      else .ok (loc, entry)
    | .error e => .error e

end SnippetRunner.FileTree
