import SnippetRunner.Workspace.Materials

/-!
The command lines of a language. A template is a list of tokens; one token stands for all
source files, the others are texts with slots. The program that a command line begins with
may be replaced by another one, and the interpreter may be told where the user's modules are.
-/
namespace SnippetRunner

structure Engine where
  timeLimit : Duration := Duration.none
  /-- Limit for each of the two outputs of a step. -/
  maxOutputBytes : Int := 1048576
  /-- Replacements of programs by name. -/
  toolchain : List (String × String) := []
  deriving DecidableEq, Repr

namespace Engine

def ofSettings (s : Settings) : Engine where
  timeLimit := s.timeLimit
  maxOutputBytes := s.maxOutputBytes
  toolchain := s.toolchain

/-- A command line with its program replaced, if there is a replacement. -/
def substitute (e : Engine) : List String → List String
  | [] => []
  | program :: args => (e.toolchain.lookup program).getD program :: args

def sourcesToken : String := "\x7bsources\x7d"

def slotValues (m : Materials) (binary : Path) : List (String × String) :=
  [("main", m.main.toString), ("binary", binary.toString), ("workdir", m.workdir.toString),
   ("classpath", m.classpath)]

def expandToken (m : Materials) (binary : Path) (token : String) :
    Except Failure (List String) :=
  if token == sourcesToken then .ok (m.sources.map Path.toString)
  else ((Text.fillTemplate token (slotValues m binary)).mapError .template).map ([·])

def expand (e : Engine) (template : List String) (m : Materials) :
    Except Failure (List String) := do
  let binary ← m.binary
  let args ← template.mapM (expandToken m binary)
  return e.substitute args.flatten

end Engine

/-- The variables of a child with the search paths of a run put first, if there are any. -/
def Descriptor.environment (d : Descriptor) (m : Materials) (env : Environment) :
    Option Environment :=
  match d.pathVariable with
  | none => none
  | some name =>
    if name == "" || m.searchPaths.isEmpty then none
    else
      let paths := m.searchPaths.map Path.toString ++ (env.nonEmpty? name).toList
      some (env.assign name (String.intercalate ":" paths))

end SnippetRunner
