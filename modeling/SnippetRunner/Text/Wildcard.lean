/-!
File name wildcards. A star stands for any run of characters, a question mark for one, and
a bracketed class for one of its members, or for one of the others after an exclamation
mark. A bracket that is never closed stands for itself.
-/
namespace SnippetRunner.Text

structure CharClass where
  negated : Bool
  members : List (Char × Char)
  deriving DecidableEq, Repr

inductive WildcardItem
  | any
  | one
  | exactly (c : Char)
  | oneOf (set : CharClass)
  deriving DecidableEq, Repr

/-- Members of a bracketed class; a hyphen between two characters makes a range. -/
def classMembers : List Char → List (Char × Char)
  | lo :: '-' :: hi :: rest => (lo, hi) :: classMembers rest
  | c :: rest => (c, c) :: classMembers rest
  | [] => []

/-- The body of a class and what follows its closing bracket; a bracket that stands first
is a member. -/
def classBody? : List Char → Option (List Char × List Char)
  | ']' :: rest => (closeBody rest).map fun r => (']' :: r.1, r.2)
  | cs => closeBody cs
where
  closeBody : List Char → Option (List Char × List Char)
    | [] => none
    | ']' :: rest => some ([], rest)
    | c :: rest => (closeBody rest).map fun r => (c :: r.1, r.2)

def readWildcard : Nat → List Char → List WildcardItem
  | 0, _ => []
  | _ + 1, [] => []
  | fuel + 1, '*' :: rest => .any :: readWildcard fuel rest
  | fuel + 1, '?' :: rest => .one :: readWildcard fuel rest
  | fuel + 1, '[' :: '!' :: rest =>
    match classBody? rest with
    | some (body, after) => .oneOf ⟨true, classMembers body⟩ :: readWildcard fuel after
    | none => .exactly '[' :: readWildcard fuel ('!' :: rest)
  | fuel + 1, '[' :: rest =>
    match classBody? rest with
    | some (body, after) => .oneOf ⟨false, classMembers body⟩ :: readWildcard fuel after
    | none => .exactly '[' :: readWildcard fuel rest
  | fuel + 1, c :: rest => .exactly c :: readWildcard fuel rest

def wildcardItems (pattern : String) : List WildcardItem :=
  readWildcard (pattern.length + 1) pattern.toList

def CharClass.holds (k : CharClass) (c : Char) : Bool :=
  k.members.any (fun r => r.1 ≤ c && c ≤ r.2) != k.negated

def matchesItems : List WildcardItem → List Char → Bool
  | [], cs => cs.isEmpty
  | .any :: items, cs => matchesTails items cs
  | .one :: items, _ :: cs => matchesItems items cs
  | .exactly x :: items, c :: cs => c == x && matchesItems items cs
  | .oneOf k :: items, c :: cs => k.holds c && matchesItems items cs
  | _, [] => false
where
  /-- Some tail of the text is matched. -/
  matchesTails (items : List WildcardItem) : List Char → Bool
    | [] => matchesItems items []
    | c :: cs => matchesItems items (c :: cs) || matchesTails items cs

def matchesWildcard (pattern name : String) : Bool :=
  matchesItems (wildcardItems pattern) name.toList

def hasWildcard (pattern : String) : Bool :=
  pattern.toList.any fun c => c == '*' || c == '?' || c == '['

def hasDoubleStar (pattern : String) : Bool :=
  twice pattern.toList
where
  twice : List Char → Bool
    | '*' :: '*' :: _ => true
    | _ :: rest => twice rest
    | [] => false

end SnippetRunner.Text
