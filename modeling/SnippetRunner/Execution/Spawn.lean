import SnippetRunner.Execution.Command
import SnippetRunner.Host

/-!
Starting a child for a step. The child leads a group of its own, reads the given input and
nothing else, and its outputs are captured. A program that is missing or must not be run is
told by the reason alone; any other failure also by its number and path.
-/
namespace SnippetRunner

structure Spawned where
  child : Nat
  output : Nat
  error : Option Nat
  deriving DecidableEq, Repr

structure SpawnPlan where
  argv : List String
  cwd : Path
  env : Environment
  input : Option String
  maxOutputBytes : Int
  separateStderr : Bool

namespace SpawnPlan

def program (p : SpawnPlan) : String := p.argv.headD ""

def hasNul (p : SpawnPlan) : Bool :=
  p.cwd.hasNul || p.argv.any (fun a => a.toList.contains '\x00') ||
    p.env.any fun v => v.1.toList.contains '\x00' || v.2.toList.contains '\x00'

/-- The failure to start a program, at the path that it concerns. -/
def failure (p : SpawnPlan) (e : FileError) (path : String) : Failure :=
  match e with
  | .noEntry => .spawnFailed p.program e.wording
  | .access => .spawnFailed p.program e.wording
  | e => .spawnFailed p.program (FileFault.at_ e path).message

def startDirectory (p : SpawnPlan) (h : Host) : Except Failure Location :=
  match h.machine.tree.stat h.cwd p.cwd with
  | .ok (loc, .directory) => .ok loc
  | .ok _ => .error (p.failure .notDirectory p.cwd.toString)
  | .error e => .error (p.failure e p.cwd.toString)

def newChild (p : SpawnPlan) (id : Nat) (cwd : Location) (streams : Streams) : Child where
  id := id
  group := id
  shell := id
  dialect := .plain
  tasks := []
  streams := streams
  cwd := cwd
  vars := p.env
  exported := p.env.map (·.1)
  parameters := []
  functions := []
  status := 0
  line := 0
  inline_ := false
  strict := false
  traps := []
  jobs := []
  ending := none

def openInput (p : SpawnPlan) (m : Machine) : Machine × Channel :=
  match p.input with
  | none => (m, .nothing)
  | some text =>
    let (m, id) := m.newPipe (Text.encodeUtf8 text)
    (m, .pipe id)

def openOutputs (p : SpawnPlan) (m : Machine) : Machine × Nat × Option Nat :=
  let (m, output) := m.newSink p.maxOutputBytes
  if p.separateStderr then
    let (m, error) := m.newSink p.maxOutputBytes
    (m, output, some error)
  else (m, output, none)

def start (p : SpawnPlan) (h : Host) : Except Failure (Host × Spawned) := do
  if p.argv.isEmpty then throw .emptyCommand
  if p.hasNul then throw (.file (.at_ .nullByte ""))
  let cwd ← p.startDirectory h
  let image ← (Machine.lookUpCommand h.machine.tree cwd p.env p.argv).mapError fun e =>
    p.failure e p.program
  let (m, input) := p.openInput h.machine
  let (m, output, error) := p.openOutputs m
  let streams : Streams := ⟨input, .sink output, .sink (error.getD output)⟩
  let id := m.nextId
  let child := p.newChild id cwd streams
  let m := { m with children := m.children ++ [child], nextId := id + 1 }
  let (m, child) := Machine.launch m child image
  return ({ h with machine := m.put child }, ⟨id, output, error⟩)

end SpawnPlan

namespace Spawned

def isLive (s : Spawned) (h : Host) : Bool :=
  (h.machine.find? s.child).any Machine.isLive

def exitCode (s : Spawned) (h : Host) : Int :=
  ((h.machine.endingOf s.child).map Ending.code).getD 0

def capture (h : Host) (sink : Nat) : Capture :=
  (h.machine.sinks.lookup sink).getD (.ofLimit 0)

/-- Forgets a group that has ended, with the sinks that belonged to it. -/
def release (s : Spawned) (h : Host) : Host :=
  let m := h.machine
  let children := m.children.filter fun c => c.group != s.child
  let sinks := m.sinks.filter fun k => k.1 != s.output && some k.1 != s.error
  let pipes := if children.any Machine.isLive then m.pipes else []
  { h with machine := { m with children, sinks, pipes } }

end Spawned

end SnippetRunner
