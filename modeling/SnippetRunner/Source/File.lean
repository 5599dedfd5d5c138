import SnippetRunner.Source.Literal

/-!
A source file as numbered lines together with the rules of its language. Lines count from
one; a range is cut out of them and dedented. The head of a line tells whether it imports
something or defines a name.
-/
namespace SnippetRunner

structure SourceFile where
  path : Path
  descriptor : Descriptor
  lines : List String
  deriving DecidableEq, Repr

namespace SourceFile

def ofText (path : Path) (descriptor : Descriptor) (text : String) : SourceFile :=
  ⟨path, descriptor, Text.splitLines text⟩

def length (f : SourceFile) : Nat :=
  f.lines.length

def text (f : SourceFile) : String :=
  Text.joinLines f.lines ++ "\n"

/-- The lines `first..last`; a bound before the first line counts from the end. -/
def rangeLines (f : SourceFile) (first last : Int) : List String :=
  Text.slice f.lines (first - 1) last

def rangeText (f : SourceFile) (first last : Int) : String :=
  Text.joinLines (Text.dedentLines (f.rangeLines first last))

end SourceFile

namespace Descriptor

def isImport (d : Descriptor) (line : String) : Bool :=
  d.importPatterns.any fun p => p.matches_ line

def definedName? (d : Descriptor) (line : String) : Option String :=
  match d.definitionPatterns.find? fun p => p.matches_ line with
  | some p => p.name? line
  | none => none

def definesName (d : Descriptor) (line : String) : Bool :=
  (d.definedName? line).any fun name => name != ""

def definedNames (d : Descriptor) (text : String) : List String :=
  ((Text.splitLines text).filterMap fun line => d.definedName? (Text.stripLeft line)).filter
    fun name => name != ""

end Descriptor

end SnippetRunner
