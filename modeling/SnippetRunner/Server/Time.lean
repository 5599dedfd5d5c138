import SnippetRunner.Execution.Drive
import SnippetRunner.Server.Work

/-!
Letting a server work. The workers move as long as one of them can; then time passes until a
child ends or a worker wakes. Callers wait for something to be the case, with or without a
limit.
-/
namespace SnippetRunner.Server

/-- A move of the first worker that can make one, or what all of them wait for. -/
def stepFirst (s : Server) : Nat → Option Nat → List Nat → Move
  | worker, wake, children =>
    if worker < s.workers.length then
      match s.stepWorker worker with
      | .moved s => .moved s
      | .blocked w cs =>
        stepFirst s (worker + 1) (Machine.soonest wake w) (children ++ cs)
    else .blocked wake children
  termination_by worker => s.workers.length - worker

/-- How many moves the workers may make: that many now, and as many for each job in the queue. -/
def moveBudget (s : Server) : Nat := Nat.pow 10 9 + Nat.pow 10 9 * s.board.queue.length

/-- Works until something is the case, a time has come, or nothing can happen any more. -/
def workFor : Nat → (Server → Bool) → Option Nat → Server → Server
  | 0, _, _, s => s
  | fuel + 1, goal, limit, s =>
    if goal s then s
    else
      match s.stepFirst 0 none [] with
      | .moved s => workFor fuel goal limit s
      | .blocked wake children =>
        if limit.any fun t => decide (t ≤ s.host.machine.clock) then s
        else
          match Machine.soonest wake limit with
          | none => s
          | some t => workFor fuel goal limit { s with host := s.host.pass children t }

/-- Works until something is the case, for at most so many milliseconds. -/
def workUntil (s : Server) (goal : Server → Bool) (patience : Option Nat) : Server :=
  workFor s.moveBudget goal (patience.map (s.host.machine.clock + ·)) s

/-- Waits until no job is pending and tells whether that came to be. -/
def waitIdle (s : Server) (patience : Option Nat) : Server × Bool :=
  let s := s.workUntil (·.board.isIdle) patience
  (s, s.board.isIdle)

def waitChild (s : Server) (patience : Nat) : Server × Nat :=
  let s := s.workUntil (fun s => !s.host.tracker.children.isEmpty) (some patience)
  (s, s.host.tracker.children.length)

def stop (s : Server) (patience : Option Nat) : Server :=
  match s.active with
  | none => s
  | some worker =>
    let s := { s with board := s.board.putStop }
    let s := s.workUntil (fun s => !s.isAlive worker) patience
    { s with active := none }

def execute (s : Server) (request : RunRequest) (job : String) (token : Nat) :
    Server × Except Failure RunReport :=
  match s.act (s.resolveRequest request job) with
  | (s, .error f) => (s, .error f)
  | (s, .ok r) =>
    let s := s.workUntil (·.holder.isNone) none
    let (language, level) := r.reported
    match s.act (s.startResolved r job token) with
    | (s, .error f) => (s, .error f)
    | (s, .ok started) =>
      let (host, result) := started.run s.host
      ({ s with host }, result.map fun outcome => ⟨language, level, outcome⟩)

end SnippetRunner.Server
