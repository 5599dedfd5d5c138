/-!
The children that are running, by the job that started them. Once a tracker is closed, every
child added to it is to be killed at once, so that none outlives the end of the program.
-/
namespace SnippetRunner

structure Tracker where
  /-- Jobs in the order of their first child; no job is listed without children. -/
  jobs : List (String × List Nat)
  closed : Bool
  deriving DecidableEq, Repr

namespace Tracker

def empty : Tracker := ⟨[], false⟩

def ofJob (t : Tracker) (job : String) : List Nat :=
  (t.jobs.lookup job).getD []

def children (t : Tracker) : List Nat :=
  t.jobs.flatMap (·.2)

def add (t : Tracker) (job : String) (child : Nat) : Tracker :=
  if t.jobs.any (·.1 == job) then
    { t with jobs := t.jobs.map fun e => if e.1 == job then (job, e.2 ++ [child]) else e }
  else { t with jobs := t.jobs ++ [(job, [child])] }

/-- Takes a child off the list of a job, and the job with its last child. -/
def remove (t : Tracker) (job : String) (child : Nat) : Tracker :=
  let jobs := t.jobs.map fun e => if e.1 == job then (job, e.2.erase child) else e
  { t with jobs := jobs.filter fun e => e.1 != job || !e.2.isEmpty }

def close (t : Tracker) : Tracker := { t with closed := true }

end Tracker

end SnippetRunner
