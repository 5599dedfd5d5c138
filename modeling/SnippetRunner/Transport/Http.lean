import SnippetRunner.Network.Target
import SnippetRunner.Server.Dispatch

/-!
Requests to the server. Whatever changes its state is answered at once with the name of a job;
what the job came to is asked for later. If a key is set, every request must carry it.
-/
namespace SnippetRunner

open Message Network

/-- A request as it comes in; the names of its headers may be in any case. -/
structure Call where
  method : String
  target : Target
  headers : List (String × String) := []
  body : String := ""
  deriving DecidableEq, Repr

structure Reply where
  status : Nat
  body : Json

inductive Route
  | health
  | status
  | run
  | clean
  | terminate
  | cancel (job : String)
  | notify
  | output
  | latest
  deriving DecidableEq, Repr

inductive Content
  | absent
  | value (v : Json)
  /-- The body is not said to be JSON. -/
  | raw

namespace Call

/-- The value of a header; the first one counts. -/
def header? (c : Call) (name : String) : Option String :=
  (c.headers.find? fun h => Text.lower h.1 == name).map (·.2)

def isJsonType (value : String) : Bool :=
  let name := Text.lower (Text.strip (String.ofList (value.toList.takeWhile (· != ';'))))
  match Text.splitAt '/' name with
  | [main, sub] => main == "application" && (sub == "json" || sub.endsWith "+json")
  | _ => false

def content (depth : Nat) (c : Call) : Except Failure Content :=
  if c.body == "" then .ok .absent
  else if (c.header? "content-type").any isJsonType then (readBody depth c.body).map .value
  else .ok .raw

end Call

namespace Reply

def detail (status : Nat) (text : String) : Reply :=
  ⟨status, .obj [("detail", .str text)]⟩

def notFound : Reply := detail 404 "Not Found"

def wrongMethod : Reply := detail 405 "Method Not Allowed"

def wrongKey : Reply := detail 401 "Invalid API key"

def noSuchJob : Reply := detail 404 "Job not found or already finished"

def noOutput : Reply := detail 404 "No output yet"

def unreadable : Reply := detail 400 "There was an error parsing the body"

def invalid (faults : List Fault) : Reply :=
  ⟨422, .obj [("detail", .arr (faults.map Fault.json))]⟩

/-- A request was accepted; if it became a job, under the job's name. -/
def accepted (job : Option String) (kind : String) : Reply :=
  ⟨202, .obj [("job_id", (job.map Json.str).getD .null), ("kind", .str kind)]⟩

def record (r : OutputRecord) : Reply := ⟨200, .obj r.members⟩

def records (rs : List OutputRecord) : Reply := ⟨200, .arr (rs.map fun r => .obj r.members)⟩

def ofUnreadable : Failure → Reply
  | .notJson (.syntaxAt e) _ =>
    invalid [⟨[.name "body", .position e.position], .json e.reason⟩]
  | _ => unreadable

end Reply

namespace Route

def method : Route → String
  | .health => "GET"
  | .status => "GET"
  | .output => "GET"
  | .latest => "GET"
  | _ => "POST"

/-- The route of a path; a line break at its end does not count. -/
def ofPath? (path : String) : Option Route :=
  let path := if path.endsWith "\n" then String.ofList path.toList.dropLast else path
  match Text.splitAt '/' path with
  | ["", "health"] => some .health
  | ["", "status"] => some .status
  | ["", "run"] => some .run
  | ["", "clean"] => some .clean
  | ["", "terminate"] => some .terminate
  | ["", "notify"] => some .notify
  | ["", "output"] => some .output
  | ["", "output", "latest"] => some .latest
  | ["", "jobs", job, "cancel"] => if job == "" then none else some (.cancel job)
  | _ => none

/-- The route of a path, or of the path without the slashes at its end. -/
def find? (path : String) : Option Route :=
  (ofPath? path).or
    (if path.endsWith "/" then
      ofPath? (String.ofList (Text.trimRight (· == '/') path.toList))
    else none)

end Route

namespace Server

def bodyMembers (depth : Nat) (c : Call) : Except Reply Members :=
  let fault (kind : FaultKind) : Except Reply Members :=
    .error (.invalid [⟨[.name "body"], kind⟩])
  match c.content depth with
  | .error failure => .error (.ofUnreadable failure)
  | .ok .absent => fault .missing
  | .ok (.value (.obj members)) => .ok members
  | .ok _ => fault .attributes

def bodyMessage {α : Type} (depth : Nat) (c : Call) (read : Members → Checked α) :
    Except Reply α := do
  let members ← bodyMembers depth c
  (read members).mapError fun faults => .invalid (faults.map (Fault.within (.name "body")))

def afterOf (t : Target) : Except Reply Int :=
  match t.parameter? "after" with
  | none => .ok 0
  | some value =>
    (readAtLeast 0 (.str value)).mapError fun kind =>
      .invalid [⟨[.name "query", .name "after"], kind⟩]

def replyRun (i : Intake) (s : Server) (c : Call) : Server × Reply :=
  match bodyMessage i.depth c i.runParams with
  | .error reply => (s, reply)
  | .ok params =>
    let (s, id) := s.submitRun params.toRequest
    (s, .accepted (some id) "run")

/-- A notification is answered with its method and with the job that came of it. -/
def replyNotify (i : Intake) (s : Server) (c : Call) : Server × Reply :=
  match bodyMessage i.depth c fun ms => i.notification (.obj ms) with
  | .error reply => (s, reply)
  | .ok n =>
    let method := Text.lower n.method
    match s.dispatch i n with
    | (s, .error faults) => (s, .invalid faults)
    | (s, .ok job) => (s, .accepted job method)

def replyCancel (s : Server) (job : String) : Server × Reply :=
  let (s, found) := s.cancel job
  (s, if found then .accepted (some job) "cancel" else .noSuchJob)

def replyClean (s : Server) : Server × Reply :=
  let (s, id) := s.submitClean
  (s, .accepted (some id) "clean")

def replyOutput (s : Server) (t : Target) : Reply :=
  match afterOf t with
  | .error reply => reply
  | .ok after => .records (s.sink.since after)

def replyRoute (i : Intake) (s : Server) (c : Call) : Route → Server × Reply
  | .health => (s, ⟨200, .obj [("status", .str "ok")]⟩)
  | .status => (s, ⟨200, s.status.json⟩)
  | .run => s.replyRun i c
  | .clean => s.replyClean
  | .terminate => (s.terminate, .accepted none "terminate")
  | .cancel job => s.replyCancel job
  | .notify => s.replyNotify i c
  | .output => (s, s.replyOutput c.target)
  | .latest => (s, (s.sink.latest?.map Reply.record).getD .noOutput)

/-- Replies to a request; an empty key stands for none. -/
def reply (i : Intake) (s : Server) (key : String) (c : Call) : Server × Reply :=
  if key != "" && c.header? "x-api-key" != some key then (s, .wrongKey)
  else
    match Route.find? c.target.path with
    | none => (s, .notFound)
    | some route => if route.method == c.method then s.replyRoute i c route else (s, .wrongMethod)

end Server

end SnippetRunner
