import SnippetRunner.Execution.Chain

/-!
Running a block of code by an interpreter on this machine: the block is written to a script
in a directory of its own and the interpreter is run on it.
-/
namespace SnippetRunner

/-- A command line for each language, and the suffix of its scripts. -/
structure Interpreters where
  table : List (String × List String × String)
  deriving DecidableEq, Repr

namespace Interpreters

def standard : Interpreters where
  table :=
    [("perl", ["perl"], ".pl"), ("php", ["php"], ".php"), ("r", ["Rscript"], ".R"),
     ("julia", ["julia"], ".jl"), ("haskell", ["runghc"], ".hs"), ("elixir", ["elixir"], ".exs"),
     ("ocaml", ["ocaml"], ".ml"), ("typescript", ["ts-node"], ".ts"),
     ("kotlin", ["kotlinc", "-script"], ".kts"), ("scala", ["scala"], ".sc"),
     ("swift", ["swift"], ".swift"), ("racket", ["racket"], ".rkt"), ("scheme", ["guile"], ".scm"),
     ("tcl", ["tclsh"], ".tcl")]

def supports (i : Interpreters) (language : String) : Bool :=
  i.table.any (·.1 == language)

def prepare (i : Interpreters) (engine : Engine) (cwd : Location) (language code : String)
    (workdir : Path) (job : String) (token : Nat) : Files ChainPlan := do
  match i.table.lookup language with
  | none => throw (.noInterpreter language)
  | some (command, suffix) =>
    let script := workdir.child s!"snippet{suffix}"
    let place : Workspace := ⟨workdir, cwd⟩
    place.makeDirectory workdir (.write script)
    place.writeFile script (code ++ "\n")
    return {
      steps := [engine.substitute (command ++ [script.toString])]
      cwd := workdir
      job, token, engine }

end Interpreters

end SnippetRunner
