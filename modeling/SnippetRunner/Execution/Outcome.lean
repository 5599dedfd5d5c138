/-!
What came of a run: the output of its steps, the exit code of the last one, and how it ended.
-/
namespace SnippetRunner

inductive RunStatus
  | ok
  | compileFailed
  | runtimeFailed
  | timedOut
  | cancelled
  deriving DecidableEq, Repr

def RunStatus.name : RunStatus → String
  | .ok => "ok"
  | .compileFailed => "compile_failed"
  | .runtimeFailed => "runtime_failed"
  | .timedOut => "timed_out"
  | .cancelled => "cancelled"

structure Outcome where
  stdout : String
  stderr : String
  exitCode : Int
  durationMs : Int
  status : RunStatus := .ok
  /-- The last step that was begun. -/
  step : Nat := 0
  truncated : Bool := false
  deriving DecidableEq, Repr

def Outcome.ok (o : Outcome) : Bool := o.status == .ok

end SnippetRunner
