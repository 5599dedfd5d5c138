import SnippetRunner.Client.Process
import SnippetRunner.Duration
import SnippetRunner.Network.Status

/-!
A client that launches backends and addresses them by handles of its own choice. It keeps one
session for a handle, and all that it does to processes and on the network is recorded.
-/
namespace SnippetRunner

structure Launch where
  host : String
  port : Nat
  deriving DecidableEq, Repr

def Launch.arguments (l : Launch) : List String :=
  ["-m", "snipexec", "serve", "--host", l.host, "--port", toString l.port]

/-- What a client did; processes are counted from zero in the order of their launch. -/
inductive ClientEvent
  | launched (launch : Launch)
  | sent (request : HttpRequest)
  | waited (process : Nat) (patience : Option Duration)
  | killed (process : Nat)

structure Session where
  handle : String
  process : Nat
  baseUrl : String
  deriving DecidableEq, Repr

/-- What a client depends upon and does not decide. -/
structure Surroundings where
  /-- Where a backend listens, by the number of attempts before, or why none can be launched. -/
  ports : Nat → Except Failure Nat
  /-- What the processes will do, by the order of their launch. -/
  conducts : Nat → Conduct
  /-- Why the library opens no session, given the address of a backend and a key. -/
  refusal : String → String → Option Failure

/-- What a library says that finds fault with keys only: a header holds nothing beyond ASCII. -/
def Surroundings.refuseKey (_address key : String) : Option Failure :=
  (Text.asciiFault? key).map .header

structure Client where
  settings : Settings
  /-- How many milliseconds a new backend has to answer for the first time. -/
  startupTime : Nat := 10000
  around : Surroundings
  wire : Wire
  /-- How often a backend was to be launched. -/
  attempts : Nat := 0
  clock : Nat := 0
  /-- All processes that were ever launched. -/
  processes : List Process := []
  sessions : List Session := []
  /-- What was done, latest first. -/
  events : List ClientEvent := []

namespace Client

def session? (c : Client) (handle : String) : Option Session :=
  c.sessions.find? (·.handle == handle)

def handles (c : Client) : List String := c.sessions.map (·.handle)

def record (c : Client) (e : ClientEvent) : Client :=
  { c with events := e :: c.events }

def sleep (c : Client) (milliseconds : Nat) : Client :=
  { c with clock := c.clock + milliseconds }

def drop (c : Client) (handle : String) : Client :=
  { c with sessions := c.sessions.filter (·.handle != handle) }

/-- Enters a session; it takes the place of one with the same handle. -/
def enter (c : Client) (s : Session) : Client :=
  if c.sessions.any (·.handle == s.handle) then
    { c with sessions := c.sessions.map fun t => if t.handle == s.handle then s else t }
  else { c with sessions := c.sessions ++ [s] }

/-- The status with which a process has ended, as far as is known. -/
def statusOf (c : Client) (process : Nat) : Option Int :=
  (c.processes[process]?).bind (·.status)

def change (c : Client) (process : Nat) (f : Process → Process) : Client :=
  match c.processes[process]? with
  | none => c
  | some p => { c with processes := c.processes.set process (f p) }

def look (c : Client) (process : Nat) : Client × Option Int :=
  let c := c.change process Process.look
  (c, c.statusOf process)

def await (c : Client) (process : Nat) (patience : Option Duration) : Client × Bool :=
  let c := (c.record (.waited process patience)).change process Process.await
  (c, (c.statusOf process).isSome)

def kill (c : Client) (process : Nat) : Client :=
  (c.record (.killed process)).change process Process.kill

def findPort (c : Client) : Client × Except Failure Nat :=
  ({ c with attempts := c.attempts + 1 }, c.around.ports c.attempts)

def address (c : Client) (port : Nat) : String :=
  Network.address "http" c.settings.host s!":{port}"

/-- Launches a process for a handle; answers what would be its session. -/
def spawn (c : Client) (handle : String) (port : Nat) : Client × Session :=
  let l : Launch := ⟨c.settings.host, port⟩
  let process := c.processes.length
  let s : Session := ⟨handle, process, Network.address "http" (Text.lower l.host) s!":{l.port}"⟩
  let c := { c with
    processes := c.processes ++ [Process.mk handle (c.around.conducts process) 0 none] }
  (c.record (.launched l), s)

/-- Launches a process for a handle and opens its session, if the library lets it. -/
def launch (c : Client) (handle : String) : Client × Except Failure Session :=
  match c.findPort with
  | (c, .error failure) => (c, .error failure)
  | (c, .ok port) =>
    let (c, s) := c.spawn handle port
    match c.around.refusal (c.address port) c.settings.apiKey with
    | some failure => (c, .error failure)
    | none => (c.enter s, .ok s)

/-- A request to the backend of a session; it carries the key, if one is set. -/
def request (c : Client) (s : Session) (method path : String) (body : Option Json) :
    HttpRequest where
  method := method
  url := s.baseUrl ++ path
  apiKey := if c.settings.apiKey == "" then none else some c.settings.apiKey
  body := body

def send (c : Client) (request : HttpRequest) : Client × HttpResult :=
  ({ c with wire := { c.wire with sent := c.wire.sent ++ [request] } }.record (.sent request),
    c.wire.respond c.wire.sent request)

def isAlive (c : Client) (handle : String) : Client × Bool :=
  match c.session? handle with
  | none => (c, false)
  | some s =>
    let (c, status) := c.look s.process
    (c, status.isNone)

end Client

end SnippetRunner
