import SnippetRunner.Delegate.Interpreter
import SnippetRunner.Delegate.Remote
import SnippetRunner.Execution.Drive
import SnippetRunner.Language.Catalog
import SnippetRunner.Selection.Notes

/-!
Languages that are recognised but not described. Their selected block is run as it is by a
delegate, which knows them by names of its own.
-/
namespace SnippetRunner

inductive Delegate
  | interpreters (table : Interpreters)
  | remote (service : Remote)
  deriving DecidableEq, Repr

def Delegate.supports : Delegate → String → Bool
  | .interpreters table, language => table.supports language
  | .remote service, language => service.supports language

/-- A run that was begun: steps that are still to be made, or an outcome that is there. -/
inductive Started
  | chain (plan : ChainPlan)
  | finished (outcome : Outcome)
  deriving DecidableEq, Repr

def Started.run (h : Host) : Started → Host × Except Failure Outcome
  | .finished outcome => (h, .ok outcome)
  | .chain plan => (plan.start h).run h []

structure Fallback where
  catalog : Catalog
  delegate : Delegate
  engine : Engine
  workspace : Workspace
  limits : Selection.Limits

namespace Fallback

/-- The name under which the delegate runs a filetype, if it does. -/
def delegateName? (f : Fallback) (filetype : Option String) : Option String :=
  (f.catalog.fallbackName? filetype).filter f.delegate.supports

def execute (f : Fallback) (language code : String) (workdir : Path) (job : String)
    (token : Nat) : Act Started := do
  match f.delegate with
  | .interpreters table =>
    let plan ← Act.files
      (table.prepare f.engine (← get).cwd language code workdir job token)
    return .chain plan
  | .remote service => return .finished (← service.execute language code job)

/-- What a language without a descriptor is taken for: blocks alone. -/
def genericDescriptor (name suffix : String) : Descriptor where
  name := name
  level := .bloc
  extension := suffix
  commands := []

/-- Resolves a request as a block: the name of its language and its code. -/
def resolve (f : Fallback) (request : RunRequest) (filetype : String) :
    Act (String × String) := do
  match f.delegateName? (some filetype) with
  | none => throw (.unsupportedLanguage filetype)
  | some name =>
    let site := (← get).site
    let path ← (request.sourcePath site.env : Except Failure Path)
    let resolution ←
      (Selection.resolve site f.limits request (genericDescriptor name path.suffix) .bloc :
        Except Failure Selection.Resolution)
    Act.noteAll resolution.notes
    return (name, resolution.snippet.code)

def begin_ (f : Fallback) (name code job : String) (token : Nat) : Act Started := do
  let base ← Act.files f.workspace.ensure
  f.execute name code ((base.child "fallback").child name) job token

def start (f : Fallback) (request : RunRequest) (filetype job : String) (token : Nat) :
    Act Started := do
  let (name, code) ← f.resolve request filetype
  f.begin_ name code job token

end Fallback

end SnippetRunner
