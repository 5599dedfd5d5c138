import SnippetRunner.Json.Writer
import SnippetRunner.Message.Field
import SnippetRunner.Moment

/-!
Records of what jobs came to. Each has a number of its own, counted from one in the order of
publication, and a written form of which the order of the members is part.
-/
namespace SnippetRunner

structure JobResult where
  jobId : String
  kind : String
  status : String
  language : Option String := none
  level : Option String := none
  stdout : String := ""
  stderr : String := ""
  exitCode : Option Int := none
  durationMs : Int := 0
  truncated : Bool := false
  error : Option String := none
  message : Option String := none
  deriving DecidableEq, Repr

structure OutputRecord where
  seq : Nat
  result : JobResult
  createdAt : Moment
  deriving DecidableEq, Repr

namespace JobResult

open Message

/-- Reads a result from its fields; those that are not known are passed over. -/
def ofMembers (ms : Members) : Checked JobResult :=
  let jobId := required ms "job_id" readText
  let kind := required ms "kind" readText
  let status := required ms "status" readText
  let language := defaulted ms "language" none (orNull readText)
  let level := defaulted ms "level" none (orNull readText)
  let stdout := defaulted ms "stdout" "" readText
  let stderr := defaulted ms "stderr" "" readText
  let exitCode := defaulted ms "exit_code" none (orNull readWhole)
  let durationMs := defaulted ms "duration_ms" 0 readWhole
  let truncated := defaulted ms "truncated" false readTruth
  let error := defaulted ms "error" none (orNull readText)
  let message := defaulted ms "message" none (orNull readText)
  let faults :=
    faultsOf jobId ++ faultsOf kind ++ faultsOf status ++ faultsOf language ++ faultsOf level ++
      faultsOf stdout ++ faultsOf stderr ++ faultsOf exitCode ++ faultsOf durationMs ++
      faultsOf truncated ++ faultsOf error ++ faultsOf message
  if faults.isEmpty then do
    return {
      jobId := ← jobId, kind := ← kind, status := ← status, language := ← language
      level := ← level, stdout := ← stdout, stderr := ← stderr, exitCode := ← exitCode
      durationMs := ← durationMs, truncated := ← truncated, error := ← error
      message := ← message }
  else .error faults

end JobResult

namespace OutputRecord

def optional {α : Type} (f : α → Json) : Option α → Json
  | some a => f a
  | none => .null

def members (r : OutputRecord) : List (String × Json) :=
  let j := r.result
  [("seq", .int r.seq), ("job_id", .str j.jobId), ("kind", .str j.kind),
   ("status", .str j.status), ("language", optional .str j.language),
   ("level", optional .str j.level), ("stdout", .str j.stdout), ("stderr", .str j.stderr),
   ("exit_code", optional .int j.exitCode), ("duration_ms", .int j.durationMs),
   ("truncated", .bool j.truncated), ("error", optional .str j.error),
   ("message", optional .str j.message), ("created_at", .str r.createdAt.isoText)]

def line (r : OutputRecord) : String := (Json.obj r.members).compact

def page (r : OutputRecord) : String := Json.indented r.members

end OutputRecord

end SnippetRunner
