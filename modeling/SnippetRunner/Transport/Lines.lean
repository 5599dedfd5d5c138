import SnippetRunner.Server.Dispatch
import SnippetRunner.Server.Time

/-!
Notifications by lines. Every line that is not blank holds one notification, and every record
that is published goes out as one line. A line that cannot be understood is noted and passed
over. When the lines end, all jobs are stopped and no child is left.
-/
namespace SnippetRunner

open Message

inductive LineFault
  | unreadable (fault : Json.ReadFailure) (text : String)
  | malformed (faults : List Fault)
  deriving DecidableEq, Repr

namespace LineFault

def placeText : Place → String
  | .name text => text
  | .position n => toString n

def faultText (f : Fault) : String :=
  String.intercalate "." (f.place.map placeText) ++
    s!"\n  {f.kind.message} [type={f.kind.name}]"

def message : LineFault → String
  | .unreadable fault text => fault.message text
  | .malformed faults =>
    let count := s!"{faults.length} validation error" ++ (if faults.length == 1 then "" else "s")
    String.intercalate "\n" (count :: faults.map faultText)

/-- The failure of a fault that ends the reading: a numeral or a nesting without bound. -/
def failure? : LineFault → Option Failure
  | .unreadable (.syntaxAt _) _ => none
  | .unreadable fault text => some (.notJson fault text)
  | .malformed _ => none

end LineFault

namespace Server

def lineListener : String := "lines"

def noteLine (s : Server) (level : LogLevel) (text : String) : Server :=
  { s with host := s.host.note "snipexec.stdio" level text }

def readLine (i : Intake) (line : String) : Except LineFault Notification :=
  match Json.read i.depth line with
  | .error fault => .error (.unreadable fault line)
  | .ok v => (i.notification v).mapError .malformed

def carryOut (i : Intake) (s : Server) (line : String) : Server × Except LineFault Unit :=
  match readLine i line with
  | .error fault => (s, .error fault)
  | .ok n =>
    match s.dispatch i n with
    | (s, .error faults) => (s, .error (.malformed faults))
    | (s, .ok _) => (s, .ok ())

def excerpt (line : String) : String :=
  Text.quote (String.ofList (line.toList.take 200))

def receive (i : Intake) (s : Server) (line : String) : Server × Except Failure Unit :=
  let line := Text.strip line
  if line == "" then (s, .ok ())
  else
    match s.carryOut i line with
    | (s, .ok ()) => (s, .ok ())
    | (s, .error fault) =>
      match fault.failure? with
      | some failure => (s, .error failure)
      | none =>
        (s.noteLine .warning
          s!"Ignoring malformed notification {excerpt line}: {fault.message}", .ok ())

/-- Receives lines until they end; the workers go on while the next one is awaited. -/
def receiveAll (i : Intake) (pause : Server → Server) :
    Server → List String → Server × Except Failure Unit
  | s, [] => (s, .ok ())
  | s, line :: rest =>
    match s.receive i line with
    | (s, .error failure) => (s, .error failure)
    | (s, .ok ()) => receiveAll i pause (pause s) rest

def listen (s : Server) : Server :=
  { s with sink := s.sink.subscribe ⟨lineListener, false⟩ }.noteLine .info
    "Listening for notifications on stdin"

def hangUp (s : Server) : Server :=
  let s := s.noteLine .info "stdin closed; stopping"
  (s.cancelAll true).1.stop none

def serveLines (i : Intake) (pause : Server → Server) (s : Server) (lines : List String) :
    Server × Except Failure Unit :=
  match receiveAll i pause s.listen lines with
  | (s, .error failure) => (s, .error failure)
  | (s, .ok ()) => (s.hangUp, .ok ())

def sentLines (s : Server) : List String :=
  (s.sink.heard.filter (·.1 == lineListener)).reverse.map (·.2.line)

end Server

end SnippetRunner
