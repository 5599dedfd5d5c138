import SnippetRunner.Source.File
import SnippetRunner.Text.Template

/-!
Top-level definitions of a file. A definition starts at a line that defines a name, with the
lines directly above it that start with an at sign in a language with indented blocks. Its
block ends where the indentation ends, or where its braces close.
-/
namespace SnippetRunner.Source

/-- A definition takes the lines `start..stop`. -/
structure Definition where
  name : String
  start : Nat
  stop : Nat
  text : String
  deriving DecidableEq, Repr

def isBlankLine (line : List Char) : Bool :=
  line.all Text.isBlank

def startsFlush : List Char → Bool
  | [] => false
  | c :: _ => !Text.isBlank c && !closesBracket c

/-- How many of the lines below a definition's head belong to it, when brackets are open to
the given depth. Blank lines belong only if a line after them does. -/
def indentExtent (depth : Int) : List String → Nat
  | [] => 0
  | line :: rest =>
    if isBlankLine line.toList then
      match indentExtent depth rest with
      | 0 => 0
      | more + 1 => more + 2
    else if depth ≤ 0 && startsFlush line.toList then 0
    else 1 + indentExtent (depth + plainDepth .indent line) rest

def startsDefinition (d : Descriptor) (line : String) : Bool :=
  match line.toList with
  | [] => false
  | c :: _ => !Text.isBlank c && d.definesName line

def braceChange (plain : List Char) : Int :=
  (plain.count Text.openBrace : Int) - (plain.count Text.closeBrace : Int)

def endsWithSemicolon (plain : List Char) : Bool :=
  (Text.trimRight Text.isBlank plain).getLast? == some ';'

/-- How many lines from the first one on belong to a definition in braces; `isHead` marks its
first line and `opened` tells that a brace has been seen. -/
def braceExtent (d : Descriptor) (isHead opened : Bool) (depth : Int) : List String → Nat
  | [] => 0
  | line :: rest =>
    let plain := plainChars .braces line.toList
    if !opened && !isHead && (isBlankLine plain || startsDefinition d line) then 0
    else
      let depth := depth + braceChange plain
      let opened := opened || plain.contains Text.openBrace
      if opened && depth ≤ 0 then 1
      else if !opened && endsWithSemicolon plain then 1
      else 1 + braceExtent d false opened depth rest

/-- The number of lines of the definition at the head of the lines. -/
def blockLength (d : Descriptor) : List String → Nat
  | [] => 0
  | line :: rest =>
    match d.blockStyle with
    | .indent => 1 + indentExtent (plainDepth .indent line) rest
    | .braces => braceExtent d true false 0 (line :: rest)

def decorators (d : Descriptor) (above : List String) : List String :=
  match d.blockStyle with
  | .indent => above.takeWhile fun line => line.toList.head? == some '@'
  | .braces => []

theorem blockLength_pos (d : Descriptor) (line : String) (rest : List String) :
    0 < blockLength d (line :: rest) := by
  simp only [blockLength]
  split
  · omega
  · simp only [braceExtent]
    split
    · simp_all
    · split <;> (try split) <;> omega

/-- The definitions in the lines from `number` on; `above` holds the lines before them,
nearest first. -/
def definitionsFrom (d : Descriptor) (above : List String) (number : Nat) :
    List String → List Definition
  | [] => []
  | line :: rest =>
    match d.isImport line, d.definedName? line with
    | false, some name =>
      let size := blockLength d (line :: rest)
      let block := (line :: rest).take size
      let marks := decorators d above
      ⟨name, number - marks.length, number + size - 1,
        Text.joinLines (marks.reverse ++ block)⟩ ::
        definitionsFrom d (block.reverse ++ above) (number + size) ((line :: rest).drop size)
    | _, _ => definitionsFrom d (line :: above) (number + 1) rest
  termination_by lines => lines.length
  decreasing_by
    · have := blockLength_pos d line rest
      simp only [List.length_drop, List.length_cons]
      omega
    · simp

def Definition.overlaps (d : Definition) (first last : Int) : Bool :=
  (d.start : Int) ≤ last && first ≤ (d.stop : Int)

/-- The definitions of a name outside `first..last`, in their order. -/
def candidates (definitions : List Definition) (first last : Int) (name : String) :
    List Definition :=
  definitions.filter fun d => d.name == name && !d.overlaps first last

/-- The last candidate that ends before a line, or else the first one. -/
def pick? (candidates : List Definition) (before : Int) : Option Definition :=
  match (candidates.filter fun d => (d.stop : Int) < before).getLast? with
  | some d => some d
  | none => candidates.head?

end SnippetRunner.Source

namespace SnippetRunner.SourceFile

def definitions (f : SourceFile) : List Source.Definition :=
  Source.definitionsFrom f.descriptor [] 1 f.lines

end SnippetRunner.SourceFile
