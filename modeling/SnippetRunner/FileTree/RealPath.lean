import SnippetRunner.FileTree.Trail

/-!
The real path of a path, found without requiring that anything exists: links are replaced by
their targets as long as they lead somewhere and may be looked at, and a link met again inside
itself ends the search with the rest of the names as they are.
-/
namespace SnippetRunner.FileTree

/-- A name still to be looked at, or the end of the target of a link. -/
inductive Pending
  | name (n : String)
  | linkEnd (loc : Location)
  deriving DecidableEq, Repr

def Pending.name? : Pending → Option String
  | .name n => some n
  | .linkEnd _ => none

/-- Double dots removed by the name before them. -/
def flattenDots (names : List String) : Location :=
  names.foldl (fun acc n => if n == ".." then acc.dropLast else acc ++ [n]) []

/-- Links on the way: not yet at the end of their target, or with the place they lead to. -/
abbrev SeenLinks := List (Location × Option Location)

/-- The link at a place, if there is one that may be looked at: where it is and its target. -/
def linkAt (t : FileTree) (barred : List Location) (place : Location) :
    Option (Location × String) :=
  if (trailFrom t false linkBudget [] [] place).barredBy barred then none
  else
    match walkFrom t false linkBudget [] place with
    | .ok (.existing loc (.link target)) => some (loc, target)
    | _ => none

def realFrom (t : FileTree) (barred : List Location) :
    Nat → SeenLinks → Location → List Pending → Location
  | 0, _, here, pending => flattenDots (here ++ pending.filterMap Pending.name?)
  | _ + 1, _, here, [] => here
  | fuel + 1, seen, here, .linkEnd loc :: rest =>
    realFrom t barred fuel ((loc, some here) :: seen) here rest
  | fuel + 1, seen, here, .name n :: rest =>
    if n == ".." then realFrom t barred fuel seen here.dropLast rest
    else
      let next := here ++ [n]
      match linkAt t barred next with
      | some (loc, target) =>
        match seen.lookup loc with
        | some (some place) => realFrom t barred fuel seen place rest
        | some none => flattenDots (next ++ rest.filterMap Pending.name?)
        | none =>
          let names := (Path.partsOf target).map Pending.name
          realFrom t barred fuel ((loc, none) :: seen) (targetStart here target)
            (names ++ .linkEnd loc :: rest)
      | none => realFrom t barred fuel seen next rest

theorem realFrom_up {t : FileTree} {barred : List Location} {fuel : Nat} {seen : SeenLinks}
    {here : Location} {rest : List Pending} :
    realFrom t barred (fuel + 1) seen here (.name ".." :: rest) =
      realFrom t barred fuel seen (parentOf here) rest := by
  simp [realFrom, parentOf]

/-- Each link is entered once, so its names are counted once. -/
def realFuel (t : FileTree) (names : List String) : Nat :=
  t.linkTargets.foldl (fun n target => n + (Path.partsOf target).length + 2) (names.length + 1)

def realPath (t : FileTree) (barred : List Location) (cwd : Location) (p : Path) : Location :=
  realFrom t barred (realFuel t p.parts) [] (startOf cwd p) (p.parts.map .name)

def pathOf (loc : Location) : Path := ⟨.root, loc⟩

inductive ResolveError
  | nullByte
  | loopAt (path : Path)
  deriving DecidableEq, Repr

def resolve (t : FileTree) (barred : List Location) (cwd : Location) (p : Path) :
    Except ResolveError Path :=
  if p.hasNul then .error .nullByte
  else
    let real := pathOf (realPath t barred cwd p)
    match statWithin t barred [] real with
    | .error .linkLoop => .error (.loopAt real)
    | _ => .ok real

end SnippetRunner.FileTree
