import SnippetRunner.FileTree.Edit
import SnippetRunner.Moment
import SnippetRunner.Settings

/-!
The log. Entries of the program's own loggers go to the error stream and, where one could be
opened, to a log file. An entry is written when its level reaches the threshold; as long as
none is set, the threshold is that of warnings.
-/
namespace SnippetRunner

inductive LogLevel
  | debug
  | info
  | warning
  | error
  | critical
  deriving DecidableEq, Repr

namespace LogLevel

def name : LogLevel → String
  | .debug => "DEBUG"
  | .info => "INFO"
  | .warning => "WARNING"
  | .error => "ERROR"
  | .critical => "CRITICAL"

def rank : LogLevel → Nat
  | .debug => 10
  | .info => 20
  | .warning => 30
  | .error => 40
  | .critical => 50

end LogLevel

structure LogEntry where
  /-- The dotted name of the logger. -/
  source : String
  level : LogLevel
  text : String
  deriving DecidableEq, Repr

structure Log where
  installed : Bool := false
  /-- The file that is written to, once it has been opened. -/
  file : Option Location := none
  threshold : Option Nat := none
  /-- What went to the error stream, latest piece first. -/
  errorPieces : List String := []
  deriving DecidableEq, Repr

namespace Log

/-- The logger that all loggers of the program are below. -/
def rootName : String := "snipexec"

def defaultThreshold : Nat := 30

/-- The names under which thresholds are set; one of them stands for none at all. -/
def thresholds : List (String × Option Nat) :=
  [("CRITICAL", some 50), ("FATAL", some 50), ("ERROR", some 40), ("WARN", some 30),
   ("WARNING", some 30), ("INFO", some 20), ("DEBUG", some 10), ("NOTSET", none)]

def handlerCount (l : Log) : Nat :=
  if l.installed then (if l.file.isSome then 2 else 1) else 0

def errorText (l : Log) : String := String.join l.errorPieces.reverse

def print (l : Log) (text : String) : Log :=
  { l with errorPieces := text :: l.errorPieces }

def isOwn (e : LogEntry) : Bool :=
  e.source == rootName || e.source.startsWith (rootName ++ ".")

def accepts (l : Log) (e : LogEntry) : Bool :=
  l.installed && isOwn e && decide (l.threshold.getD defaultThreshold ≤ e.level.rank)

def errorLine (e : LogEntry) : String :=
  s!"[{rootName}] {e.level.name} - {e.text}\n"

def fileLine (now : Moment) (e : LogEntry) : String :=
  let level := e.level.name ++ String.ofList (List.replicate (8 - e.level.name.length) ' ')
  s!"{now.logText} | {level} | {e.source} | {e.text}\n"

def appendEntry (l : Log) (t : FileTree) (now : Moment) (e : LogEntry) : FileTree :=
  match l.file with
  | none => t
  | some loc =>
    match t.find? loc with
    | some (.file octets executable) =>
      t.insert loc (.file (octets ++ Text.encodeUtf8 (fileLine now e)) executable)
    | _ => t

def write (l : Log) (t : FileTree) (now : Moment) (e : LogEntry) : Log × FileTree :=
  if l.accepts e then (l.print (errorLine e), l.appendEntry t now e) else (l, t)

def openFile (t : FileTree) (cwd : Location) (p : Path) :
    FileTree × Except FileFault Location :=
  match t.makeDirectories cwd p.parent with
  | (t, some fault) => (t, .error fault)
  | (t, none) =>
    match t.appendOctets cwd p [] with
    | .error e => (t, .error (.at_ e p.toString))
    | .ok t =>
      match t.stat cwd p with
      | .ok (loc, _) => (t, .ok loc)
      | .error e => (t, .error (.at_ e p.toString))

/-- Installs the places to write to, the first time, and sets the threshold. -/
def configure (l : Log) (t : FileTree) (cwd : Location) (now : Moment) (s : Settings) :
    (Log × FileTree) × Except Failure Unit :=
  let (l, t, failure) :=
    if l.installed then (l, t, none)
    else
      let l := { l with installed := true }
      match s.logFile with
      | none => (l, t, none)
      | some p =>
        match openFile t cwd p with
        | (t, .ok loc) => ({ l with file := some loc }, t, none)
        | (t, .error fault) =>
          if fault.error == .nullByte then (l, t, some (Failure.file fault))
          else
            let (l, t) := l.write t now ⟨rootName, .warning,
              s!"Unable to open log file {p}; logging to stderr only"⟩
            (l, t, none)
  match failure with
  | some f => ((l, t), .error f)
  | none =>
    match thresholds.lookup s.logLevel with
    | some threshold => (({ l with threshold }, t), .ok ())
    | none => ((l, t), .error (.setting (.unknownLogLevel s.logLevel)))

end Log

end SnippetRunner
