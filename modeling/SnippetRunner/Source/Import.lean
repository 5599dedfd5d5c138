import SnippetRunner.Source.File

/-!
Import statements at the head of a file. The leading region runs to the first definition, or
up to the selection in a language without definitions. A statement may take several lines: it
ends where its brackets are closed and its line does not end with a backslash.
-/
namespace SnippetRunner.Source

structure Statement where
  start : Nat
  lines : List String
  deriving DecidableEq, Repr

def Statement.text (s : Statement) : String :=
  Text.joinLines s.lines

def isContinued (plain : List Char) : Bool :=
  (Text.trimRight Text.isBlank plain).getLast? == some '\\'

/-- The number of lines of the statement at the head of the lines. -/
def statementLength (style : BlockStyle) (depth : Int) : List String → Nat
  | [] => 0
  | line :: rest =>
    let plain := plainChars style line.toList
    let depth := depth + depthChange plain
    if depth ≤ 0 && !isContinued plain then 1 else 1 + statementLength style depth rest

def endsRegion (d : Descriptor) (first : Int) (number : Nat) (line : String) : Bool :=
  if d.definitionPatterns.isEmpty then first ≤ (number : Int)
  else !d.isImport line && d.definesName line

theorem statementLength_pos (style : BlockStyle) (depth : Int) (line : String)
    (rest : List String) : 0 < statementLength style depth (line :: rest) := by
  simp only [statementLength]
  split <;> omega

/-- The statements of the leading region of the lines from `number` on. -/
def statementsFrom (d : Descriptor) (first : Int) (number : Nat) : List String → List Statement
  | [] => []
  | line :: rest =>
    if endsRegion d first number line then []
    else if d.isImport line then
      let size := statementLength d.blockStyle 0 (line :: rest)
      ⟨number, (line :: rest).take size⟩ ::
        statementsFrom d first (number + size) ((line :: rest).drop size)
    else statementsFrom d first (number + 1) rest
  termination_by lines => lines.length
  decreasing_by
    · have := statementLength_pos d.blockStyle 0 line rest
      simp only [List.length_drop, List.length_cons]
      omega
    · simp

end SnippetRunner.Source

namespace SnippetRunner.SourceFile

/-- The import statements of the leading region that do not start in `first..last`. -/
def imports (f : SourceFile) (first last : Int) : List Source.Statement :=
  if f.descriptor.importPatterns.isEmpty then []
  else
    (Source.statementsFrom f.descriptor first 1 f.lines).filter fun s =>
      !(first ≤ (s.start : Int) && (s.start : Int) ≤ last)

end SnippetRunner.SourceFile
