import SnippetRunner.Text.Lines

/-!
Paths as written. A path is an anchor and a list of names; repeated slashes and single dots
disappear on reading, double dots stay, and the empty path is the current directory.
Joining an absolute path forgets what stands before it.
-/
namespace SnippetRunner

/-- Where a path starts; exactly two leading slashes are kept apart from one. -/
inductive Anchor
  | here
  | root
  | doubleRoot
  deriving DecidableEq, Repr

structure Path where
  anchor : Anchor
  parts : List String
  deriving DecidableEq, Repr

namespace Path

def anchorOf : List Char → Anchor
  | '/' :: '/' :: '/' :: _ => .root
  | '/' :: '/' :: _ => .doubleRoot
  | '/' :: _ => .root
  | _ => .here

def partsOf (s : String) : List String :=
  (Text.splitAt '/' s).filter fun name => name != "" && name != "."

def ofString (s : String) : Path :=
  ⟨anchorOf s.toList, partsOf s⟩

def current : Path := ⟨.here, []⟩

def anchorText : Anchor → String
  | .here => ""
  | .root => "/"
  | .doubleRoot => "//"

def toString (p : Path) : String :=
  match p.anchor, p.parts with
  | .here, [] => "."
  | anchor, parts => anchorText anchor ++ String.intercalate "/" parts

instance : ToString Path := ⟨Path.toString⟩

def isAbsolute (p : Path) : Bool :=
  p.anchor != .here

def join (base tail : Path) : Path :=
  if tail.isAbsolute then tail else ⟨base.anchor, base.parts ++ tail.parts⟩

def child (base : Path) (name : String) : Path :=
  base.join (ofString name)

/-- A direct entry of a directory, whose name is taken as it is. -/
def entry (base : Path) (name : String) : Path :=
  ⟨base.anchor, base.parts ++ [name]⟩

def parent (p : Path) : Path :=
  ⟨p.anchor, p.parts.dropLast⟩

def name (p : Path) : String :=
  p.parts.getLast?.getD ""

/-- The place of the last dot, if it stands neither first nor last. -/
def suffixStart? (name : List Char) : Option Nat :=
  let after := (name.reverse.takeWhile (· != '.')).length
  if after == 0 || name.length ≤ after + 1 then none
  else some (name.length - after - 1)

def suffixOf (name : String) : String :=
  match suffixStart? name.toList with
  | some i => String.ofList (name.toList.drop i)
  | none => ""

def stemOf (name : String) : String :=
  match suffixStart? name.toList with
  | some i => String.ofList (name.toList.take i)
  | none => name

def suffix (p : Path) : String :=
  suffixOf p.name

/-- The path with another suffix; a path without a name has none to replace. -/
def withSuffix? (p : Path) (suffix : String) : Option Path :=
  if p.name == "" then none
  else some ⟨p.anchor, p.parts.dropLast ++ [stemOf p.name ++ suffix]⟩

def relativeTo? (p base : Path) : Option Path :=
  if p.anchor == base.anchor && base.parts.isPrefixOf p.parts then
    some ⟨.here, p.parts.drop base.parts.length⟩
  else none

def sortKey (p : Path) : List String :=
  match p.anchor with
  | .here => p.parts
  | anchor => anchorText anchor :: p.parts

def charsLe : List Char → List Char → Bool
  | [], _ => true
  | _ :: _, [] => false
  | a :: as, b :: bs => a.toNat < b.toNat || (a == b && charsLe as bs)

def textLe (a b : String) : Bool :=
  charsLe a.toList b.toList

def namesLe : List String → List String → Bool
  | [], _ => true
  | _ :: _, [] => false
  | a :: as, b :: bs => if a == b then namesLe as bs else textLe a b

def le (p q : Path) : Bool :=
  namesLe p.sortKey q.sortKey

/-- A NUL cannot be part of a path. -/
def hasNul (p : Path) : Bool :=
  p.parts.any fun name => name.toList.contains '\x00'

end Path

end SnippetRunner
