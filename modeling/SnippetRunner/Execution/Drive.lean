import SnippetRunner.Execution.Chain

/-!
Letting time pass while chains wait for their children, and running a single chain to its
end.
-/
namespace SnippetRunner

namespace Host

/-- Lets the children run until one of some has ended or a time has come. -/
def pass (h : Host) (children : List Nat) (limit : Nat) : Host :=
  { h with machine := h.machine.runUntil children limit }

end Host

namespace Chain

/-- How many moves a run may take; polls of a tenth of a second of a year are fewer. -/
def moveBudget : Nat := Nat.pow 10 9

abbrev Timers := List (Nat × Nat)

def ring (h : Host) (timers : Timers) : Host × Timers :=
  ((timers.filter fun t => decide (t.1 ≤ h.machine.clock)).foldl (fun h t => h.cancel t.2) h,
    timers.filter fun t => !decide (t.1 ≤ h.machine.clock))

def nextTime (limit : Nat) (timers : Timers) : Nat :=
  timers.foldl (fun soonest t => min soonest t.1) limit

def runFor : Nat → Chain → Host → Timers → Host × Except Failure Outcome
  | 0, c, h, _ => (h, .ok (c.outcome h .cancelled))
  | fuel + 1, c, h, timers =>
    let (h, timers) := ring h timers
    match c.step h with
    | .done h outcome => (h, .ok outcome)
    | .failed h failure => (h, .error failure)
    | .moved h c => runFor fuel c h timers
    | .waiting h c until_ => runFor fuel c (h.pass c.awaited (nextTime until_ timers)) timers

def run (c : Chain) (h : Host) (timers : Timers) : Host × Except Failure Outcome :=
  runFor moveBudget c h timers

end Chain

end SnippetRunner
