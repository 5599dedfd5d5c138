import SnippetRunner.Execution.Tracker
import SnippetRunner.Json.Value
import SnippetRunner.Log
import SnippetRunner.Machine.Step
import SnippetRunner.Workspace.Directory

/-!
What jobs act upon: the machine with its files, its clock and its children, the list of
children that belong to jobs, the jobs that have been told to stop, the network, and the log.
An action may fail, and what it had done by then stays done.
-/
namespace SnippetRunner

structure HttpRequest where
  method : String
  url : String
  apiKey : Option String := none
  body : Option Json := none

/-- What comes back for a request: an answer, or the reason why there is none. -/
inductive HttpResult
  | response (status : Nat) (body : String)
  | failed (reason : String)
  deriving DecidableEq, Repr

/-- The network, and the library by which it is used. What it answers may depend on all that was
sent before. -/
structure Wire where
  respond : List HttpRequest → HttpRequest → HttpResult
  /-- What is wrong with an address that the library cannot read. -/
  addressFault : String → Option String := fun _ => none
  /-- How deep the values of an answer may be inside each other. -/
  depth : Nat
  /-- Requests in the order in which they were sent. -/
  sent : List HttpRequest := []

structure Host where
  machine : Machine
  cwd : Location
  env : Environment
  bars : Bars := {}
  /-- The moment at which the clock of the machine began. -/
  epoch : Moment := ⟨0⟩
  tracker : Tracker := .empty
  /-- Tokens of the jobs that were told to stop. -/
  cancelled : List Nat := []
  wire : Wire
  log : Log := {}

abbrev Act := ExceptT Failure (StateM Host)

namespace Host

def now (h : Host) : Moment := ⟨h.epoch.milliseconds + h.machine.clock⟩

def site (h : Host) : Site := ⟨h.machine.tree, h.cwd, h.env, h.bars⟩

def withTree (h : Host) (tree : FileTree) : Host :=
  { h with machine := { h.machine with tree } }

def isCancelled (h : Host) (token : Nat) : Bool :=
  h.cancelled.contains token

def cancel (h : Host) (token : Nat) : Host :=
  if h.cancelled.contains token then h else { h with cancelled := token :: h.cancelled }

def note (h : Host) (source : String) (level : LogLevel) (text : String) : Host :=
  let (log, tree) := h.log.write h.machine.tree h.now ⟨source, level, text⟩
  { h.withTree tree with log }

def complain (h : Host) (text : String) : Host :=
  { h with log := h.log.print text }

def configureLog (h : Host) (s : Settings) : Host × Except Failure Unit :=
  let ((log, tree), result) := h.log.configure h.machine.tree h.cwd h.now s
  ({ h.withTree tree with log }, result)

def send (h : Host) (request : HttpRequest) : Host × HttpResult :=
  ({ h with wire := { h.wire with sent := h.wire.sent ++ [request] } },
    h.wire.respond h.wire.sent request)

def killGroup (h : Host) (child : Nat) : Host :=
  { h with machine := h.machine.killGroup child 9 }

/-- Lists a new child under a job; once the tracker is closed it is killed at once. -/
def track (h : Host) (job : String) (child : Nat) : Host :=
  let h := { h with tracker := h.tracker.add job child }
  if h.tracker.closed then
    (h.note "snipexec.executor.process" .warning
      s!"Process group {child} of job {job} started after shutdown; killing").killGroup child
  else h

def untrack (h : Host) (job : String) (child : Nat) : Host :=
  { h with tracker := h.tracker.remove job child }

def killJob (h : Host) (job : String) : Host × Nat :=
  let children := h.tracker.ofJob job
  (children.foldl
    (fun h child =>
      (h.note "snipexec.executor.process" .info
        s!"Killing process group {child} of job {job}").killGroup child) h,
   children.length)

def killAll (h : Host) : Host × Nat :=
  let children := h.tracker.children
  (children.foldl
    (fun h child =>
      (h.note "snipexec.executor.process" .info s!"Killing process group {child}").killGroup
        child) h,
   children.length)

/-- Refuses new children from now on and kills the present ones. -/
def closeTracker (h : Host) : Host × Nat :=
  { h with tracker := h.tracker.close }.killAll

end Host

namespace Act

def files {α : Type} (f : Files α) : Act α := do
  let h ← get
  let (result, tree) := f.run.run h.machine.tree
  set (h.withTree tree)
  match result with
  | .ok a => return a
  | .error e => throw e

def note (source : String) (level : LogLevel) (text : String) : Act Unit :=
  modify fun h => h.note source level text

def noteAll (entries : List LogEntry) : Act Unit :=
  modify fun h => entries.foldl (fun h e => h.note e.source e.level e.text) h

def send (request : HttpRequest) : Act HttpResult := do
  let (h, result) := (← get).send request
  set h
  return result

end Act

end SnippetRunner
