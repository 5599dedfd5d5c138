import SnippetRunner.Delegate.Fallback
import SnippetRunner.Output.Sink
import SnippetRunner.Server.Board

/-!
The job server: its settings, the board of jobs, the workers that serve it, the sink for the
results, and the host on which jobs run. What callers do to a server are single moves; the
workers make theirs in between.
-/
namespace SnippetRunner

/-- A request whose code is known but was not written yet. -/
inductive Resolved
  | described (descriptor : Descriptor) (level : Level) (snippet : Snippet)
  | delegated (name code : String)
  deriving DecidableEq, Repr

structure RunReport where
  language : String
  level : Level
  outcome : Outcome
  deriving DecidableEq, Repr

inductive Activity
  | starting
  /-- The job needs the work directory, which another worker may hold. -/
  | resolved (r : Resolved)
  | running (language : String) (level : Level) (chain : Chain)
  /-- The work directory was cleaned and is left alone for a while. -/
  | settling (until_ : Nat)
  deriving DecidableEq, Repr

inductive WorkerState
  | waiting
  | holding (job : Job)
  | working (job : Job) (activity : Activity)
  | closing (job : Job)
  /-- The record of the job could not be published, which ends the worker. -/
  | failing (job : Job)
  | stopped
  deriving DecidableEq, Repr

structure Server where
  settings : Settings
  catalog : Catalog
  delegate : Delegate
  workspace : Workspace
  engine : Engine
  limits : Selection.Limits
  host : Host
  sink : Sink
  board : Board := {}
  /-- All workers that were ever started; each has its place for good. -/
  workers : List WorkerState := []
  /-- The worker that was started last, until it is let go. -/
  active : Option Nat := none
  /-- The worker that holds the work directory. -/
  holder : Option Nat := none
  /-- How many jobs have been named. -/
  named : Nat := 0
  nextToken : Nat := 1
  /-- How often the program was told to exit. -/
  exits : Nat := 0

structure ServerStatus where
  busy : Bool
  queued : Int
  currentJob : Option String
  children : List Nat
  workdir : Path
  deriving DecidableEq, Repr

def ServerStatus.json (s : ServerStatus) : Json :=
  .obj [("busy", .bool s.busy), ("queued", .int s.queued),
    ("current_job", (s.currentJob.map Json.str).getD .null),
    ("live_pids", .arr (s.children.map fun child => Json.int (child : Nat))),
    ("workdir", .str s.workdir.toString)]

namespace Server

def logName : String := "snipexec.server"

def delegateOf (s : Settings) : Delegate :=
  match s.fallbackUrl with
  | some url => .remote ⟨url, none⟩
  | none => .interpreters .standard

def create (settings : Settings) (catalog : Catalog) (delegate : Delegate) (h : Host) :
    Host × Except Failure Server :=
  let workspace : Workspace := ⟨settings.workDir, h.cwd⟩
  let (made, h) := (Act.files workspace.ensure).run.run h
  match made with
  | .error failure => (h, .error failure)
  | .ok _ =>
    (h, .ok {
      settings, catalog, delegate, workspace
      engine := .ofSettings settings
      limits := .ofSettings settings
      host := h
      sink := { path := some settings.outputFile, history := settings.outputHistory } })

def fallback (s : Server) : Fallback where
  catalog := s.catalog
  delegate := s.delegate
  engine := s.engine
  workspace := s.workspace
  limits := s.limits

def note (s : Server) (level : LogLevel) (text : String) : Server :=
  { s with host := s.host.note logName level text }

def act {α : Type} (s : Server) (a : Act α) : Server × Except Failure α :=
  let (result, host) := a.run.run s.host
  ({ s with host }, result)

def isAlive (s : Server) (worker : Nat) : Bool :=
  match s.workers[worker]? with
  | some .stopped => false
  | some _ => true
  | none => false

/-- Starts a worker, unless the one that was started last is still there. -/
def start (s : Server) : Server × Except Failure Unit :=
  if s.active.any s.isAlive then (s, .ok ())
  else
    match s.act (Act.files s.workspace.ensure) with
    | (s, .error failure) => (s, .error failure)
    | (s, .ok _) =>
      let s := { s with
        active := some s.workers.length, workers := s.workers ++ [WorkerState.waiting] }
      (s.note .info s!"Job server started; work directory {s.workspace.base}", .ok ())

def submit (s : Server) (id : String) (kind : JobKind) : Server :=
  let job : Job := ⟨id, kind, s.nextToken⟩
  let s := { s with
    board := (s.board.enter job).put job
    nextToken := s.nextToken + 1 }
  s.note .info s!"Queued {kind.name} job {id}"

def newName (s : Server) : String :=
  s!"job{Moment.padded 9 (s.named + 1)}"

def submitNamed (s : Server) (kind : JobKind) : Server × String :=
  let id := s.newName
  ({ s with named := s.named + 1 }.submit id kind, id)

def submitRun (s : Server) (request : RunRequest) : Server × String :=
  s.submitNamed (.run (some request))

def submitClean (s : Server) : Server × String :=
  s.submitNamed .clean

def cancel (s : Server) (id : String) : Server × Bool :=
  match s.board.find? id with
  | none => (s, false)
  | some job =>
    let (host, _) := (s.host.cancel job.token).killJob id
    ({ s with host }.note .info s!"Job {id} cancelled", true)

/-- Tells all pending jobs to stop and kills all children; answers how many groups. -/
def cancelAll (s : Server) (close : Bool) : Server × Nat :=
  let host := s.board.tokens.foldl Host.cancel s.host
  let (host, killed) := if close then host.closeTracker else host.killAll
  ({ s with host }, killed)

def terminate (s : Server) : Server :=
  let (s, killed) := s.cancelAll true
  let s := s.note .warning s!"Terminate: killed {killed} process group(s); exiting"
  { s with exits := s.exits + 1 }

def status (s : Server) : ServerStatus where
  busy := s.board.current.isSome
  queued := s.board.queued
  currentJob := s.board.current.map (·.id)
  children := s.host.tracker.children
  workdir := s.workspace.base

end Server

end SnippetRunner
