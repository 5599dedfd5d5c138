import SnippetRunner.Client.Basic
import SnippetRunner.Network.Status

/-!
Requests to a backend that was started. They fail when there is none for the handle, when it
has ended, and when its answer is no success; an answer must be JSON.
-/
namespace SnippetRunner.Client

def active (c : Client) (handle : String) : Client × Except Failure Session :=
  match c.session? handle with
  | none => (c, .error (.backendUnreachable (.notStarted handle)))
  | some s =>
    match c.look s.process with
    | (c, some status) => (c, .error (.backendUnreachable (.exited handle (toString status))))
    | (c, none) => (c, .ok s)

def readAnswer (depth : Nat) (url : String) (fault : String → BackendFault) (result : HttpResult) :
    Except Failure Json := do
  let body ← (Network.successBody url result).mapError fun reason =>
    .backendUnreachable (fault reason)
  Network.readBody depth body

/-- Sends a request to the backend of a handle; answers the value in its answer. -/
def ask (c : Client) (handle method path : String) (body : Option Json)
    (fault : String → BackendFault) : Client × Except Failure Json :=
  match c.active handle with
  | (c, .error failure) => (c, .error failure)
  | (c, .ok s) =>
    let request := c.request s method path body
    let (c, result) := c.send request
    (c, readAnswer c.wire.depth request.url fault result)

def post (c : Client) (handle path : String) (body : Option Json) :
    Client × Except Failure Json :=
  c.ask handle "POST" path body (.refused handle path)

def jobOf (answer : Json) : Except Failure Json :=
  match answer with
  | .obj members =>
    match members.lookup "job_id" with
    | some id => .ok id
    | none => .error (.answer (.missingKey "job_id"))
  | .arr _ => .error (.answer (.notIndexable answer.kindName))
  | .str _ => .error (.answer .textIndex)
  | v => .error (.answer (.notSubscriptable v.kindName))

structure RunOrder where
  file : String
  firstLine : Int
  lastLine : Int
  scriptDir : String
  filetype : Option String := none
  deriving DecidableEq, Repr

def RunOrder.json (r : RunOrder) : Json :=
  .obj [("file", .str r.file), ("first_line", .int r.firstLine), ("last_line", .int r.lastLine),
    ("script_dir", .str r.scriptDir), ("filetype", (r.filetype.map Json.str).getD .null)]

def run (c : Client) (handle : String) (r : RunOrder) : Client × Except Failure Json :=
  let (c, result) := c.post handle "/run" (some r.json)
  (c, result.bind jobOf)

/-- Asks for the work directory to be emptied and leaves it the time to be. -/
def clean (c : Client) (handle : String) : Client × Except Failure Unit :=
  match c.post handle "/clean" none with
  | (c, .error failure) => (c, .error failure)
  | (c, .ok _) => (c.sleep c.settings.cleanSettleMs, .ok ())

def output (c : Client) (handle : String) (after : Int) : Client × Except Failure Json :=
  c.ask handle "GET" s!"/output?after={after}" none (.silent handle)

end SnippetRunner.Client
