/-!
Backend processes as a client sees them. A process may end by itself at any time, which shows
when it is looked at; it may ignore that it was asked to end, but not that it was killed. Once
it has ended it stays so.
-/
namespace SnippetRunner

structure Conduct where
  /-- The status with which it has ended by itself when it is looked at for the n-th time. -/
  endsAt : Nat → Option Int := fun _ => none
  /-- It does not end when it is asked to. -/
  stubborn : Bool := false

structure Process where
  /-- The name of the session that the process was launched for. -/
  handle : String
  conduct : Conduct
  looks : Nat := 0
  status : Option Int := none

namespace Process

def killStatus : Int := -9

def look (p : Process) : Process :=
  match p.status with
  | some _ => p
  | none => { p with looks := p.looks + 1, status := p.conduct.endsAt p.looks }

/-- Waits for a process that was asked to end; it has ended then, unless it is stubborn. -/
def await (p : Process) : Process :=
  match p.status with
  | some _ => p
  | none => if p.conduct.stubborn then p else { p with status := some 0 }

def kill (p : Process) : Process :=
  match p.status with
  | some _ => p
  | none => { p with status := some killStatus }

def isAlive (p : Process) : Bool := p.status.isNone

end Process

end SnippetRunner
