import SnippetRunner.Language.Descriptor

/-!
The languages that are known without any configuration, the filetypes that only a fallback
can run, and the file extensions that belong to a language besides its own one.
-/
namespace SnippetRunner.Language

open Pattern

def latinStart : List SetItem :=
  [.range 'A' 'Z', .range 'a' 'z', .single '_']

def plainName : Pattern :=
  .seq (.one ⟨false, latinStart⟩) (.many ⟨false, [.word]⟩ false)

def dollarName : Pattern :=
  .seq (.one ⟨false, latinStart ++ [.single '$']⟩) (.many ⟨false, [.word, .single '$']⟩ false)

def optionalWord (word : String) : Pattern :=
  .optional (.seq (.text word) someBlanks)

def python : Descriptor where
  name := "python"
  aliases := ["python3", "py"]
  level := .project
  extension := ".py"
  commands := [["python3", "\x7bmain\x7d"]]
  importPatterns :=
    [sequence [.start, words "import" ["from"], someBlanks,
      .many ⟨false, [.word, .single '.']⟩ true]]
  definitionPatterns :=
    [sequence [.start, optionalWord "async", .text "def", someBlanks, .name plainName],
     sequence [.start, .text "class", someBlanks, .name plainName],
     sequence [.start, .name plainName, blanks,
       .optional (.seq (.text ":") (.many ⟨true, [.single '=']⟩ true)),
       .text "=", .notNext (.text "=")]]
  blockStyle := .indent
  projectMarkers := ["pyproject.toml", "setup.py", "setup.cfg", ".git"]
  pathVariable := some "PYTHONPATH"

def javascript : Descriptor where
  name := "javascript"
  aliases := ["js", "node"]
  level := .file
  extension := ".js"
  commands := [["node", "\x7bmain\x7d"]]
  importPatterns :=
    [sequence [.start, .text "import", .one ⟨false, [.blank]⟩],
     sequence [.start, words "const" ["let", "var"], someBlanks,
       .many ⟨false, [.word, .single '$', .single '\x7b', .single '\x7d', .blank, .single ',',
         .single ':']⟩ true,
       .text "=", blanks, .text "require("]]
  definitionPatterns :=
    [sequence [.start, optionalWord "export", optionalWord "async", .text "function",
       .optional (.text "*"), someBlanks, .name dollarName],
     sequence [.start, optionalWord "export", .text "class", someBlanks, .name dollarName],
     sequence [.start, optionalWord "export", words "const" ["let", "var"], someBlanks,
       .name dollarName, blanks, .text "="]]
  projectMarkers := ["package.json", ".git"]

def bash : Descriptor where
  name := "bash"
  aliases := ["sh"]
  level := .bloc
  extension := ".sh"
  commands := [["bash", "\x7bmain\x7d"]]
  template := "\x7bbody\x7d\n"

/-- The function that holds the statements of a program whose blocks stand in braces. -/
def mainFunction (head tail : String) : String :=
  head ++ " \x7b\x7b\n\x7bbody\x7d\n" ++ tail ++ "\x7d\x7d\n"

def includePattern : Pattern :=
  sequence [.start, blanks, .text "#", blanks, .text "include", .boundary]

def c : Descriptor where
  name := "c"
  level := .import_
  extension := ".c"
  commands := [["gcc", "\x7bmain\x7d", "-o", "\x7bbinary\x7d"], ["\x7bbinary\x7d"]]
  template := "\x7bimports\x7d\n\x7bdefinitions\x7d\n" ++ mainFunction "int main()" "return 0;\n"
  defaultImports := ["#include <stdio.h>"]
  importPatterns := [includePattern]

def cpp : Descriptor where
  name := "cpp"
  aliases := ["c++", "cxx"]
  level := .import_
  extension := ".cpp"
  commands := [["g++", "\x7bmain\x7d", "-o", "\x7bbinary\x7d"], ["\x7bbinary\x7d"]]
  template := "\x7bimports\x7d\n\x7bdefinitions\x7d\n" ++ mainFunction "int main()" "return 0;\n"
  defaultImports := ["#include <iostream>"]
  importPatterns := [includePattern]

def rust : Descriptor where
  name := "rust"
  aliases := ["rust-lang", "rs"]
  level := .bloc
  extension := ".rs"
  commands :=
    [["rustc", "-O", "--out-dir", "\x7bworkdir\x7d", "\x7bmain\x7d"], ["\x7bbinary\x7d"]]
  template := mainFunction "fn main()" ""

def go : Descriptor where
  name := "go"
  aliases := ["golang"]
  level := .import_
  extension := ".go"
  commands := [["go", "run", "\x7bmain\x7d"]]
  template :=
    "package main\n\n\x7bimports\x7d\n\x7bdefinitions\x7d\n" ++ mainFunction "func main()" ""
  importPatterns := [sequence [.start, .text "import", .boundary]]
  projectMarkers := ["go.mod", ".git"]

def java : Descriptor where
  name := "java"
  level := .system
  extension := ".java"
  mainName := "Main"
  commands :=
    [["javac", "-d", "\x7bworkdir\x7d", "-cp", "\x7bclasspath\x7d", "\x7bsources\x7d"],
     ["java", "-cp", "\x7bclasspath\x7d", "Main"]]
  template :=
    "\x7bimports\x7d\n\npublic class Main \x7b\x7b\n" ++
      mainFunction "public static void main(String[] args) throws Exception" "" ++
      "\x7d\x7d\n\n\x7bdefinitions\x7d\n"
  importPatterns :=
    [sequence [.start, .text "import", someBlanks, optionalWord "static",
      .many ⟨false, [.word, .single '.', .single '*']⟩ true, blanks, .text ";"]]
  definitionPatterns :=
    [sequence [.start,
      .repeated (.seq (words "public" ["abstract", "final", "sealed"]) someBlanks),
      words "class" ["interface", "enum", "record"], someBlanks,
      .name (.many ⟨false, [.word]⟩ true)]]
  projectMarkers := ["pom.xml", "build.gradle", "build.gradle.kts", ".git"]
  projectLayout := .mirrored
  libraryGlobs := ["lib/*.jar", "libs/*.jar", "target/dependency/*.jar", "build/libs/*.jar"]
  systemLibraryDirs := ["/usr/share/java"]

def lua : Descriptor where
  name := "lua"
  level := .line
  extension := ".lua"
  commands := [["lua", "\x7bmain\x7d"]]
  template := "\x7bbody\x7d\n"

def ruby : Descriptor where
  name := "ruby"
  aliases := ["rb"]
  level := .import_
  extension := ".rb"
  commands := [["ruby", "\x7bmain\x7d"]]
  template := "\x7bimports\x7d\n\x7bbody\x7d\n"
  importPatterns :=
    [sequence [.start, .text "require", .optional (.text "_relative"), .boundary]]
  projectMarkers := ["Gemfile", ".git"]
  pathVariable := some "RUBYLIB"

def builtIn : List Descriptor :=
  [python, javascript, bash, c, cpp, rust, go, java, lua, ruby]

/-- Filetypes without a descriptor, with the names by which a fallback knows them. -/
def fallbackNames : List (String × String) :=
  [("perl", "perl"), ("php", "php"), ("r", "r"), ("julia", "julia"), ("haskell", "haskell"),
   ("elixir", "elixir"), ("ocaml", "ocaml"), ("typescript", "typescript"),
   ("ts", "typescript"), ("kotlin", "kotlin"), ("scala", "scala"), ("swift", "swift"),
   ("racket", "racket"), ("scheme", "scheme"), ("tcl", "tcl")]

def extraExtensions : List (String × String) :=
  [(".pl", "perl"), (".php", "php"), (".r", "r"), (".jl", "julia"), (".hs", "haskell"),
   (".exs", "elixir"), (".ex", "elixir"), (".ml", "ocaml"), (".ts", "typescript"),
   (".kt", "kotlin"), (".kts", "kotlin"), (".scala", "scala"), (".swift", "swift"),
   (".rkt", "racket"), (".scm", "scheme"), (".tcl", "tcl"), (".h", "c"), (".hpp", "cpp"),
   (".cc", "cpp"), (".mjs", "javascript")]

end SnippetRunner.Language
