import SnippetRunner.Selection.Snippet

/-!
The board of jobs. A job is pending from its submission until it is finished, waits in the
queue until a worker takes it, and is the current one while it is worked on. Submitting takes
two moves, so that a job may be pending before it is in the queue.
-/
namespace SnippetRunner

inductive JobKind
  | run (request : Option RunRequest)
  | clean
  deriving DecidableEq, Repr

def JobKind.name : JobKind → String
  | .run _ => "run"
  | .clean => "clean"

structure Job where
  id : String
  kind : JobKind
  /-- What the job is told to stop by. -/
  token : Nat
  deriving DecidableEq, Repr

structure Board where
  /-- Jobs in order; a gap tells a worker to stop. -/
  queue : List (Option Job) := []
  pending : List (String × Job) := []
  current : Option Job := none
  deriving DecidableEq, Repr

namespace Board

/-- Makes a job pending; it takes the place of one with the same name. -/
def enter (b : Board) (job : Job) : Board :=
  if b.pending.any (·.1 == job.id) then
    { b with pending := b.pending.map fun p => if p.1 == job.id then (job.id, job) else p }
  else { b with pending := b.pending ++ [(job.id, job)] }

def put (b : Board) (job : Job) : Board :=
  { b with queue := b.queue ++ [some job] }

/-- Tells a worker to stop after the jobs that are in the queue. -/
def putStop (b : Board) : Board :=
  { b with queue := b.queue ++ [none] }

def take? (b : Board) : Option (Option Job × Board) :=
  match b.queue with
  | [] => none
  | head :: rest => some (head, { b with queue := rest })

def begin_ (b : Board) (job : Job) : Board :=
  { b with current := some job }

def finish (b : Board) (job : Job) : Board :=
  { b with current := none, pending := b.pending.filter fun p => p.1 != job.id }

def find? (b : Board) (id : String) : Option Job := b.pending.lookup id

def tokens (b : Board) : List Nat := b.pending.map (·.2.token)

def isIdle (b : Board) : Bool := b.pending.isEmpty

def queued (b : Board) : Int :=
  (b.pending.length : Int) - (if b.current.isSome then 1 else 0)

end Board

end SnippetRunner
