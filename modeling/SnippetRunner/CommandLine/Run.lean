import SnippetRunner.CommandLine.Arguments
import SnippetRunner.Transport.Lines

/-!
What the program does when it is called. It either runs one range of lines and prints what
came of it, or serves notifications, by lines or on the network, until there are no more.
-/
namespace SnippetRunner.CommandLine

structure Listening where
  title : String
  host : String
  port : Int
  logLevel : String
  deriving DecidableEq, Repr

def serviceTitle : String := "Snippet Runner"

structure Report where
  /-- The exit code, or what the program failed with. -/
  result : Except Failure Int
  /-- The pieces of the output; a line of its own is a piece with its line break. -/
  output : List String := []
  listened : List Listening := []
  /-- How often the program was told to exit. -/
  exits : Nat := 0
  host : Host

/-- The settings with what the arguments say in their place; an empty host and the port zero
say nothing. -/
def settingsWith (s : Settings) (o : ServeOptions) : Settings :=
  { s with
    host := (o.host.filter (· != "")).getD s.host
    port := (o.port.filter (· != 0)).getD s.port }

/-- The exit code for that of a run; a run that was killed counts as failed. -/
def exitCodeOf (code : Int) : Int :=
  if code < 0 then 1 else code

def requestOf (site : Site) (o : RunOptions) : Except Failure RunRequest := do
  return {
    file := ← site.resolve (.ofString o.file)
    first := o.first
    last := o.last
    scriptDir := site.currentDirectory
    filetype := o.filetype
    level := o.level }

def runOnce (s : Server) (o : RunOptions) : Report :=
  match requestOf s.host.site o with
  | .error failure => { result := .error failure, host := s.host }
  | .ok request =>
    match s.execute request "adhoc" 0 with
    | (s, .ok report) =>
      { result := .ok (exitCodeOf report.outcome.exitCode)
        output := [report.outcome.stdout]
        host := s.host.complain report.outcome.stderr }
    | (s, .error failure) =>
      match failure.reportName? with
      | some name => { result := .ok 2, host := s.host.complain s!"{name}: {failure.message}\n" }
      | none => { result := .error failure, host := s.host }

def serveStdio (i : Message.Intake) (pause : Server → Server) (s : Server)
    (lines : List String) : Report :=
  let (s, result) := s.serveLines i pause lines
  { result := result.map fun _ => 0
    output := s.sentLines.map (· ++ "\n")
    exits := s.exits
    host := s.host }

def serveNetwork (s : Server) : Report :=
  { result := .ok 0
    listened := [⟨serviceTitle, s.settings.host, s.settings.port,
      Text.lower s.settings.logLevel⟩]
    host := (s.cancelAll true).1.host }

def serve (i : Message.Intake) (pause : Server → Server) (s : Server) (o : ServeOptions)
    (lines : List String) : Report :=
  match s.start with
  | (s, .error failure) => { result := .error failure, host := s.host }
  | (s, .ok ()) =>
    let s := { s with host := s.host.note Log.rootName .info "snipexec backend launched" }
    if o.stdio then serveStdio i pause s lines else serveNetwork s

def prepare (o : ServeOptions) (h : Host) : Host × Except Failure Server :=
  match Settings.ofEnvironment h.env with
  | .error failure => (h, .error failure)
  | .ok settings =>
    let settings := settingsWith settings o
    match h.configureLog settings with
    | (h, .error failure) => (h, .error failure)
    | (h, .ok ()) => Server.create settings .standard (Server.delegateOf settings) h

def perform (i : Message.Intake) (pause : Server → Server) (command : Command) (h : Host)
    (lines : List String) : Report :=
  let options := match command with
    | .serve o => o
    | .run _ => {}
  match prepare options h with
  | (h, .error failure) => { result := .error failure, host := h }
  | (_, .ok s) =>
    match command with
    | .serve o => serve i pause s o lines
    | .run o => runOnce s o

/-- Calls the program with arguments; the lines are those of its input. -/
def call (i : Message.Intake) (pause : Server → Server) (args : List String) (h : Host)
    (lines : List String) : Report :=
  match Command.ofArguments args with
  | .error refusal =>
    { result := .ok refusal.exitCode
      output := [refusal.output]
      host := h.complain refusal.complaint }
  | .ok command => perform i pause command h lines

end SnippetRunner.CommandLine
