import SnippetRunner.Execution.Outcome
import SnippetRunner.Execution.Spawn

/-!
Running the steps of a program one after the other. A step that fails, runs out of time or is
told to stop ends the chain; its output still counts. What a finished step means is decided
by its report alone; the chain itself waits for a child in short polls, so that it can be
stopped between any two of them.
-/
namespace SnippetRunner

structure StepReport where
  code : Int
  out : String
  err : String
  cut : Bool
  timedOut : Bool
  deriving DecidableEq, Repr

/-- The status with which a finished step ends its chain; none when the chain goes on. -/
def StepReport.verdict? (r : StepReport) (last cancelled : Bool) : Option RunStatus :=
  if r.timedOut then some .timedOut
  else if cancelled then some .cancelled
  else if r.code != 0 then some (if last then .runtimeFailed else .compileFailed)
  else none

structure Transcript where
  stdout : String := ""
  stderr : String := ""
  exitCode : Int := 0
  truncated : Bool := false
  deriving DecidableEq, Repr

namespace Transcript

def timeoutNotice (limit : Duration) : String :=
  s!"\nExecution timed out after {limit.text} seconds."

def add (t : Transcript) (r : StepReport) (limit : Duration) : Transcript where
  stdout := t.stdout ++ r.out
  stderr := t.stderr ++ r.err ++ (if r.timedOut then timeoutNotice limit else "")
  exitCode := r.code
  truncated := t.truncated || r.cut

end Transcript

structure ChainPlan where
  steps : List (List String)
  cwd : Path
  job : String
  token : Nat
  engine : Engine
  separateStderr : Bool := true
  /-- The input of the last step. -/
  input : Option String := none
  env : Option Environment := none
  deriving DecidableEq, Repr

structure RunningStep where
  spawned : Spawned
  deadline : Option Int
  pollAt : Nat
  killed : Bool := false
  timedOut : Bool := false
  deriving DecidableEq, Repr

structure Chain where
  plan : ChainPlan
  /-- Steps that were not begun. -/
  left : List (List String)
  /-- How many steps were begun or looked at. -/
  begun : Nat := 0
  transcript : Transcript := {}
  running : Option RunningStep := none
  startedAt : Nat
  deriving DecidableEq, Repr

inductive ChainProgress
  | moved (h : Host) (c : Chain)
  | waiting (h : Host) (c : Chain) (until_ : Nat)
  | done (h : Host) (outcome : Outcome)
  | failed (h : Host) (failure : Failure)

/-- The run of the commands of a language on files that were written for it. -/
def Engine.plan (e : Engine) (d : Descriptor) (m : Materials) (env : Environment)
    (job : String) (token : Nat) : Except Failure ChainPlan := do
  let steps ← d.commands.mapM fun template => e.expand template m
  return {
    steps
    cwd := m.workdir
    job, token
    engine := e
    separateStderr := d.separateStderr
    env := d.environment m env }

namespace ChainPlan

def start (p : ChainPlan) (h : Host) : Chain :=
  { plan := p, left := p.steps, startedAt := h.machine.clock }

def spawnPlan (p : ChainPlan) (h : Host) (argv : List String) (last : Bool) : SpawnPlan where
  argv := argv
  cwd := p.cwd
  env := p.env.getD h.env
  input := if last then p.input else none
  maxOutputBytes := p.engine.maxOutputBytes
  separateStderr := p.separateStderr

end ChainPlan

namespace Chain

def logName : String := "snipexec.executor.engine"

def pollLength : Nat := 50

def index (c : Chain) : Nat := c.begun - 1

def outcome (c : Chain) (h : Host) (status : RunStatus) : Outcome where
  stdout := c.transcript.stdout
  stderr := c.transcript.stderr
  exitCode := c.transcript.exitCode
  durationMs := ((h.machine.clock - c.startedAt : Nat) : Int)
  status := status
  step := c.index
  truncated := c.transcript.truncated

def beginStep (c : Chain) (h : Host) (argv : List String) (rest : List (List String)) :
    ChainProgress :=
  let p := c.plan
  let line := String.intercalate " " argv
  let h := h.note logName .info s!"[{p.job}] step {c.begun}: {line}"
  match (p.spawnPlan h argv rest.isEmpty).start h with
  | .error failure => .failed h failure
  | .ok (h, spawned) =>
    let now := h.machine.clock
    let limit := p.engine.timeLimit.milliseconds
    let running : RunningStep := {
      spawned
      deadline := if limit == 0 then none else some ((now : Int) + limit)
      pollAt := now + pollLength }
    .moved (h.track p.job spawned.child)
      { c with left := rest, begun := c.begun + 1, running := some running }

def report (h : Host) (r : RunningStep) : StepReport :=
  let out := Spawned.capture h r.spawned.output
  let err := r.spawned.error.map (Spawned.capture h)
  { code := r.spawned.exitCode h
    out := out.text
    err := (err.map Capture.text).getD ""
    cut := out.truncated || err.any (·.truncated)
    timedOut := r.timedOut }

/-- Ends a step: whatever its child left behind is killed, and the child is let go. -/
def endStep (c : Chain) (h : Host) (r : RunningStep) : ChainProgress :=
  let h := h.killGroup r.spawned.child
  let shown := report h r
  let h := r.spawned.release (h.untrack c.plan.job r.spawned.child)
  let c := { c with
    transcript := c.transcript.add shown c.plan.engine.timeLimit
    running := none }
  match shown.verdict? c.left.isEmpty (h.isCancelled c.plan.token) with
  | some status => .done h (c.outcome h status)
  | none => .moved h c

/-- A look at a child that is still running: it may have to be killed, but only once. -/
def poll (c : Chain) (h : Host) (r : RunningStep) : ChainProgress :=
  let now := h.machine.clock
  let r := { r with pollAt := now + pollLength }
  if r.killed then .moved h { c with running := some r }
  else if h.isCancelled c.plan.token then
    let h := h.note logName .info s!"[{c.plan.job}] cancelled, killing {r.spawned.child}"
    .moved (h.killGroup r.spawned.child) { c with running := some { r with killed := true } }
  else if r.deadline.any fun d => decide (d < (now : Int)) then
    let h := h.note logName .warning
      s!"[{c.plan.job}] timed out after {c.plan.engine.timeLimit.text}s"
    .moved (h.killGroup r.spawned.child)
      { c with running := some { r with killed := true, timedOut := true } }
  else .moved h { c with running := some r }

def awaited (c : Chain) : List Nat :=
  c.running.toList.map (·.spawned.child)

def step (c : Chain) (h : Host) : ChainProgress :=
  match c.running with
  | some r =>
    if !r.spawned.isLive h then c.endStep h r
    else if h.machine.clock < r.pollAt then .waiting h c r.pollAt
    else c.poll h r
  | none =>
    match c.left with
    | [] => .done h (c.outcome h .ok)
    | argv :: rest =>
      if h.isCancelled c.plan.token then
        let c := { c with
          begun := c.begun + 1
          transcript := { c.transcript with exitCode := -1 } }
        .done h (c.outcome h .cancelled)
      else c.beginStep h argv rest

end Chain

end SnippetRunner
