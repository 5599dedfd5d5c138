import SnippetRunner.Server.Basic

/-!
The work on a job. A request is resolved, then its files are written, then its steps are run;
the work directory belongs to one worker from the writing to the end. Whatever becomes of a
job, one record of it is published; a worker that cannot publish it does not live on.
-/
namespace SnippetRunner.Server

/-- The filetype of a request, guessed from its file if none is given. -/
def filetypeOf (s : Server) (request : RunRequest) : Except Failure String :=
  match request.filetype.filter (· != "") with
  | some filetype => .ok filetype
  | none => (request.sourcePath s.host.env).map s.catalog.detect

def resolveRequest (s : Server) (request : RunRequest) (job : String) : Act Resolved := do
  let filetype ← (s.filetypeOf request : Except Failure String)
  match s.catalog.lookup? (some filetype) with
  | none =>
    match s.fallback.delegateName? (some filetype) with
    | none => throw (.unsupportedLanguage filetype)
    | some name =>
      Act.note logName .info s!"[{job}] {filetype} has no handler; using fallback {name}"
      let (name, code) ← s.fallback.resolve request filetype
      return .delegated name code
  | some d =>
    let level := match request.level with
      | some wanted => wanted.lower d.level
      | none => d.level
    let resolution ← (Selection.resolve (← get).site s.limits request d level :
      Except Failure Selection.Resolution)
    Act.noteAll resolution.notes
    Act.noteAll (resolution.snippet.misses.map fun m =>
      ⟨logName, .debug, s!"[{job}] {m.message}"⟩)
    return .described d level resolution.snippet

def startResolved (s : Server) (r : Resolved) (job : String) (token : Nat) : Act Started := do
  match r with
  | .delegated name code => s.fallback.begin_ name code job token
  | .described d _ snippet =>
    let m ← Act.files (s.workspace.materialize snippet)
    Act.note "snipexec.workspace" .debug
      s!"Materialized {m.sources.length} file(s) in {m.main.parent}"
    let plan ← (s.engine.plan d m (← get).env job token : Except Failure ChainPlan)
    return .chain plan

end Server

def Resolved.reported : Resolved → String × Level
  | .described d level _ => (d.name, level)
  | .delegated name _ => (name, .bloc)

def Failure.result (f : Failure) (job : Job) : JobResult where
  jobId := job.id
  kind := job.kind.name
  status := "error"
  error := some (f.reportName?.getD "InternalError")
  message := some f.message

def RunReport.result (r : RunReport) (job : Job) : JobResult where
  jobId := job.id
  kind := "run"
  status := r.outcome.status.name
  language := some r.language
  level := some r.level.name
  stdout := r.outcome.stdout
  stderr := r.outcome.stderr
  exitCode := some r.outcome.exitCode
  durationMs := r.outcome.durationMs
  truncated := r.outcome.truncated

namespace Server

def setWorker (s : Server) (worker : Nat) (state : WorkerState) : Server :=
  { s with workers := s.workers.set worker state }

def release (s : Server) (worker : Nat) : Server :=
  if s.holder == some worker then { s with holder := none } else s

def publish (s : Server) (result : JobResult) : Server × Except Failure OutputRecord :=
  let (sink, host, published) := s.sink.publish s.host result
  ({ s with sink, host }, published)

/-- Publishes the result of a job, after which its worker only has to strike it off. -/
def conclude (s : Server) (worker : Nat) (job : Job) (result : JobResult) : Server :=
  match (s.release worker).publish result with
  | (s, .ok _) => s.setWorker worker (.closing job)
  | (s, .error _) => s.setWorker worker (.failing job)

def concludeFailure (s : Server) (worker : Nat) (job : Job) (f : Failure) : Server :=
  let s := match f.reportName? with
    | some _ => s.note .warning s!"[{job.id}] {job.kind.name} failed: {f.message}"
    | none => s.note .error s!"[{job.id}] Unhandled error during {job.kind.name}"
  s.conclude worker job (f.result job)

def concludeRun (s : Server) (worker : Nat) (job : Job) (report : RunReport) : Server :=
  let o := report.outcome
  let s := s.note .info
    (s!"[{job.id}] {report.language} finished: status={o.status.name} "
      ++ s!"exit_code={o.exitCode} duration_ms={o.durationMs}")
  s.conclude worker job (report.result job)

/-- Publishes that the work directory was cleaned; if this fails the job has failed. -/
def concludeClean (s : Server) (worker : Nat) (job : Job) : Server :=
  match (s.release worker).publish { jobId := job.id, kind := "clean", status := "cleaned" } with
  | (s, .ok _) => s.setWorker worker (.closing job)
  | (s, .error f) => s.concludeFailure worker job f

def beginClean (s : Server) (worker : Nat) (job : Job) : Server :=
  match s.act (Act.files s.workspace.clean) with
  | (s, .error f) => s.concludeFailure worker job f
  | (s, .ok ()) =>
    let host := s.host.note "snipexec.workspace" .info
      s!"Work directory {s.workspace.base} cleaned"
    let until_ := host.machine.clock + s.settings.cleanSettleMs
    { s with host }.setWorker worker (.working job (.settling until_))

def beginRun (s : Server) (worker : Nat) (job : Job) (request : Option RunRequest) : Server :=
  match request with
  | none => s.concludeFailure worker job (.invalidRequest (.noRequest job.id))
  | some request =>
    match s.act (s.resolveRequest request job.id) with
    | (s, .error f) => s.concludeFailure worker job f
    | (s, .ok r) => s.setWorker worker (.working job (.resolved r))

def beginFiles (s : Server) (worker : Nat) (job : Job) (r : Resolved) : Server :=
  let s := { s with holder := some worker }
  let (language, level) := r.reported
  match s.act (s.startResolved r job.id job.token) with
  | (s, .error f) => s.concludeFailure worker job f
  | (s, .ok (.finished outcome)) => s.concludeRun worker job ⟨language, level, outcome⟩
  | (s, .ok (.chain plan)) =>
    s.setWorker worker (.working job (.running language level (plan.start s.host)))

/-- What came of a move of a worker: the server went on, or the worker waits for one of some
children, for a time, or for something that others do. -/
inductive Move
  | moved (s : Server)
  | blocked (wake : Option Nat) (children : List Nat)

def stepChain (s : Server) (worker : Nat) (job : Job) (language : String) (level : Level)
    (chain : Chain) : Move :=
  match chain.step s.host with
  | .moved host chain =>
    .moved ({ s with host }.setWorker worker (.working job (.running language level chain)))
  | .waiting _ chain until_ => .blocked (some until_) chain.awaited
  | .done host outcome =>
    .moved ({ s with host }.concludeRun worker job ⟨language, level, outcome⟩)
  | .failed host f => .moved ({ s with host }.concludeFailure worker job f)

def stepActivity (s : Server) (worker : Nat) (job : Job) (activity : Activity) : Move :=
  let free := s.holder.isNone || s.holder == some worker
  match activity with
  | .starting =>
    match job.kind with
    | .clean => if free then .moved (s.beginClean worker job) else .blocked none []
    | .run request => .moved (s.beginRun worker job request)
  | .resolved r => if free then .moved (s.beginFiles worker job r) else .blocked none []
  | .running language level chain => s.stepChain worker job language level chain
  | .settling until_ =>
    if until_ ≤ s.host.machine.clock then
      .moved (s.concludeClean worker job)
    else .blocked (some until_) []

def stepWorker (s : Server) (worker : Nat) : Move :=
  match s.workers[worker]? with
  | none => .blocked none []
  | some .stopped => .blocked none []
  | some .waiting =>
    match s.board.take? with
    | none => .blocked none []
    | some (none, board) => .moved ({ s with board }.setWorker worker .stopped)
    | some (some job, board) => .moved ({ s with board }.setWorker worker (.holding job))
  | some (.holding job) =>
    .moved ({ s with board := s.board.begin_ job }.setWorker worker (.working job .starting))
  | some (.working job activity) => s.stepActivity worker job activity
  | some (.closing job) =>
    .moved ({ s with board := s.board.finish job }.setWorker worker .waiting)
  | some (.failing job) =>
    .moved ({ s with board := s.board.finish job }.setWorker worker .stopped)

end SnippetRunner.Server
