import SnippetRunner.Execution.Outcome
import SnippetRunner.Network.Status

/-!
Running a block of code by a service on the network. The answer is an object with the output,
the exit code and the length of the run; what is missing counts as empty or zero, and numbers
may come in any form that denotes a whole one.
-/
namespace SnippetRunner

structure Remote where
  baseUrl : String
  /-- The languages that the service knows; all of them if none are given. -/
  languages : Option (List String) := none
  deriving DecidableEq, Repr

inductive WholeFault
  | refused (reason : String)
  | infinite
  deriving DecidableEq, Repr

namespace Json

def numeralMessage (text : String) : Text.NumeralError → String
  | .malformed => s!"invalid literal for int() with base 10: {Text.quote text}"
  | .tooLong digits => Text.tooLongMessage digits

/-- The whole number that a value denotes; a fraction is cut off. -/
def toWhole : Json → Except WholeFault Int
  | .int n => .ok n
  | .bool b => .ok (if b then 1 else 0)
  | .str s => (Text.parseInteger s).mapError fun e => .refused (numeralMessage s e)
  | .float .notANumber => .error (.refused "cannot convert float NaN to integer")
  | .float x =>
    match x.truncate? with
    | some n => .ok n
    | none => .error .infinite
  | v => .error (.refused
      s!"int() argument must be a string, a bytes-like object or a real number, not '{v.kindName}'")

end Json

namespace Remote

def logName : String := "snipexec.executor.fallback"

def supports (r : Remote) (language : String) : Bool :=
  match r.languages with
  | none => true
  | some languages => languages.contains language

def url (r : Remote) : String :=
  String.ofList (Text.trimRight (· == '/') r.baseUrl.toList) ++ "/exec"

def request (r : Remote) (language code : String) : HttpRequest where
  method := "POST"
  url := r.url
  body := some (.obj [("language", .str language), ("code", .str code)])

/-- The failure that a fault of a number means; only a number without bound escapes. -/
def numberFailure (url : String) : WholeFault → Failure
  | .refused reason => .spawnFailed url s!"invalid response: {reason}"
  | .infinite => .infiniteNumber

/-- The failure that an unreadable body means; only a depth without bound escapes. -/
def bodyFailure (url : String) : Failure → Failure
  | .notJson (.tooDeep inList) text => .notJson (.tooDeep inList) text
  | e => .spawnFailed url s!"invalid response: {e.message}"

def outcomeOf (url : String) (answer : Json) : Except Failure Outcome := do
  match answer with
  | .obj _ =>
    let whole (key : String) : Except Failure Int :=
      (((answer.member? key).getD (.int 0)).toWhole).mapError (numberFailure url)
    let text (key : String) : String := ((answer.member? key).getD (.str "")).shown
    let exitCode ← whole "exit_code"
    let durationMs ← whole "duration_ms"
    return {
      stdout := text "stdout"
      stderr := text "stderr"
      exitCode, durationMs
      status := if exitCode == 0 then .ok else .runtimeFailed }
  | v => throw (.spawnFailed url s!"invalid response: expected a JSON object, got {v.kindName}")

def interpret (depth : Nat) (url : String) (result : HttpResult) : Except Failure Outcome := do
  let body ← (Network.successBody url result).mapError (Failure.spawnFailed url)
  let answer ← (Network.readBody depth body).mapError (bodyFailure url)
  outcomeOf url answer

/-- Has a block run; nothing is sent to an address that cannot be read. -/
def execute (r : Remote) (language code job : String) : Act Outcome := do
  Act.note logName .info s!"[{job}] forwarding {language} block to {r.url}"
  let h ← get
  match h.wire.addressFault r.url with
  | some reason => throw (.address reason)
  | none =>
    let result ← Act.send (r.request language code)
    (interpret h.wire.depth r.url result : Except Failure Outcome)

end Remote

end SnippetRunner
