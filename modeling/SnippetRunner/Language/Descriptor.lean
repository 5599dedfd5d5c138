import SnippetRunner.Language.Level
import SnippetRunner.Language.Pattern

/-!
What is known about a language: how its programs are written down, run and looked up. A
descriptor is data only, so that a new language is a new table entry.
-/
namespace SnippetRunner

/-- How a definition ends: where the indentation ends, or where its braces close. -/
inductive BlockStyle
  | indent
  | braces
  deriving DecidableEq, Repr

/-- Definitions of other files are copied into the main file, or whole files are kept in
their places beside it. -/
inductive ProjectLayout
  | inline
  | mirrored
  deriving DecidableEq, Repr

structure Descriptor where
  name : String
  level : Level
  extension : String
  /-- Templates of the programs to run one after the other. -/
  commands : List (List String)
  template : String := "\x7bimports\x7d\n\x7bdefinitions\x7d\n\x7bbody\x7d\n"
  aliases : List String := []
  mainName : String := "main"
  defaultImports : List String := []
  importPatterns : List Pattern := []
  definitionPatterns : List Pattern := []
  blockStyle : BlockStyle := .braces
  projectMarkers : List String := [".git"]
  projectLayout : ProjectLayout := .inline
  libraryGlobs : List String := []
  systemLibraryDirs : List String := []
  separateStderr : Bool := true
  /-- The variable in which the interpreter looks for directories of modules. -/
  pathVariable : Option String := none
  deriving DecidableEq, Repr

namespace Descriptor

def identifiers (d : Descriptor) : List String :=
  d.name :: d.aliases

def mainFile (d : Descriptor) : String :=
  d.mainName ++ d.extension

end Descriptor

def BlockStyle.name : BlockStyle → String
  | .indent => "indent"
  | .braces => "braces"

def ProjectLayout.name : ProjectLayout → String
  | .inline => "inline"
  | .mirrored => "mirror"

def BlockStyle.commentMark : BlockStyle → String
  | .indent => "#"
  | .braces => "//"

end SnippetRunner
