import SnippetRunner.Execution.Capture
import SnippetRunner.Shell.Expansion

/-!
Child programs and the machine that runs them. A child is a stack of tasks with three
streams, a directory, variables and a group; a machine is a file tree, a clock, the children,
and the pipes and sinks that their streams lead to. Everything a child does is done in steps,
so that a child can be stopped between any two of them.
-/
namespace SnippetRunner

inductive Channel
  | nothing
  | zeros
  | sink (id : Nat)
  | pipe (id : Nat)
  | file (loc : Location)
  deriving DecidableEq, Repr

inductive Ending
  | exited (status : Nat)
  | killed (signal : Nat)
  deriving DecidableEq, Repr

/-- The exit code by which an ending is reported: negative for a signal. -/
def Ending.code : Ending → Int
  | .exited status => (status : Int)
  | .killed signal => -(signal : Int)

def Ending.status : Ending → Nat
  | .exited status => status
  | .killed signal => 128 + signal

structure Streams where
  input : Channel
  output : Channel
  error : Channel
  deriving DecidableEq, Repr

/-- The two shells differ in their messages and in what echo does. -/
inductive Dialect
  | plain
  | extended
  deriving DecidableEq, Repr

inductive Filter
  | count (lines words octets : Bool)
  | edit (script : String) (quiet : Bool)
  | sort (reverse unique numeric : Bool)
  | unique
  | lastLines (n : Nat)
  | lastOctets (n : Nat)
  | reverseLines
  | search (pattern : String) (inverted counted : Bool)
  | script
  deriving DecidableEq, Repr

/-- A character map: what is deleted, and what is replaced by what. -/
structure OctetMap where
  deleted : List UInt8
  replaced : List (UInt8 × UInt8)
  deriving DecidableEq, Repr

inductive Task
  | script (rest : List Char) (line : Nat)
  | run (c : Shell.Command)
  | evaluate (c : Shell.Command) (outputs : List String)
  | collect (pipe child : Nat) (read : List (List UInt8)) (c : Shell.Command)
      (outputs : List String)
  | ifOk (c : Shell.Command)
  | ifFailed (c : Shell.Command)
  | negate
  /-- Ends a strict child whose last command failed. -/
  | check
  | strictly (strict : Bool)
  | branch (yes no : Shell.Command)
  | loopTest (whileOk : Bool) (condition body : Shell.Command) (status : Nat)
  | loopAgain (whileOk : Bool) (condition body : Shell.Command)
  | forEach (name : String) (words : List String) (body : Shell.Command)
  | restore (streams : Streams)
  | leave (parameters : List String)
  | await (children : List Nat)
  | awaitAll
  | output (toError : Bool) (octets : List UInt8)
  | finish (status : Nat)
  | quit (status : Option Nat)
  | sleep (until_ : Nat)
  | copyInput (copies : List Channel)
  | headOctets (left : Nat)
  | headLines (left : Nat)
  | mapInput (map : OctetMap)
  | gather (read : List (List UInt8)) (filter : Filter)
  | always (octets : List UInt8)
  | readLine (names : List String) (read : List UInt8)
  deriving Repr

structure Child where
  id : Nat
  group : Nat
  /-- The shell that a child belongs to, by which it calls itself. -/
  shell : Nat
  dialect : Dialect
  tasks : List Task
  streams : Streams
  cwd : Location
  vars : List (String × String)
  exported : List String
  parameters : List String
  functions : List (String × Shell.Command)
  status : Nat
  line : Nat
  /-- The script of a shell was given as an argument. -/
  inline_ : Bool
  /-- The first command that fails ends the child. -/
  strict : Bool
  /-- What is to be done on signals, and at the end, which counts as signal zero. -/
  traps : List (Nat × String)
  /-- Children in the background, latest first. -/
  jobs : List Nat
  ending : Option Ending
  deriving Repr

structure Machine where
  tree : FileTree
  /-- Milliseconds. -/
  clock : Nat
  /-- Rounds since the clock last moved. -/
  beats : Nat
  children : List Child
  pipes : List (Nat × List UInt8)
  sinks : List (Nat × Capture)
  nextId : Nat
  deriving Repr

namespace Machine

def start (tree : FileTree) : Machine := ⟨tree, 0, 0, [], [], [], 1000⟩

def find? (m : Machine) (id : Nat) : Option Child :=
  m.children.find? (·.id == id)

def put (m : Machine) (c : Child) : Machine :=
  { m with children := m.children.map fun x => if x.id == c.id then c else x }

def isLive (c : Child) : Bool := c.ending.isNone

def heldStreams (c : Child) : List Streams :=
  c.streams :: c.tasks.filterMap fun t => match t with
    | .restore streams => some streams
    | .collect pipe .. => some ⟨.pipe pipe, .nothing, .nothing⟩
    | _ => none

def writesTo (c : Child) (pipe : Nat) : Bool :=
  isLive c && (heldStreams c).any fun s => s.output == .pipe pipe || s.error == .pipe pipe

def readsFrom (c : Child) (pipe : Nat) : Bool :=
  isLive c && (heldStreams c).any fun s => s.input == .pipe pipe

def newPipe (m : Machine) (octets : List UInt8) : Machine × Nat :=
  ({ m with pipes := (m.nextId, octets) :: m.pipes, nextId := m.nextId + 1 }, m.nextId)

def newSink (m : Machine) (limit : Int) : Machine × Nat :=
  ({ m with sinks := (m.nextId, .ofLimit limit) :: m.sinks, nextId := m.nextId + 1 }, m.nextId)

def setPipe (m : Machine) (id : Nat) (octets : List UInt8) : Machine :=
  { m with pipes := m.pipes.map fun p => if p.1 == id then (id, octets) else p }

def pipeCapacity : Nat := 65536

/-- What became of a write: all or part of it was taken, nothing can be taken now, or nobody
will ever read it. -/
inductive Written
  | taken (m : Machine) (left : List UInt8)
  | full
  | broken

def write (m : Machine) (ch : Channel) (octets : List UInt8) : Written :=
  match ch with
  | .nothing => .taken m []
  | .zeros => .taken m []
  | .sink id =>
    .taken { m with sinks := m.sinks.map fun s => if s.1 == id then (id, s.2.add octets) else s } []
  | .file loc =>
    match m.tree.find? loc with
    | some (.file old executable) =>
      .taken { m with tree := m.tree.insert loc (.file (old ++ octets) executable) } []
    | _ => .taken m []
  | .pipe id =>
    match m.pipes.lookup id with
    | none => .broken
    | some held =>
      if !m.children.any (readsFrom · id) then .broken
      else
        let room := pipeCapacity - held.length
        if room == 0 then .full
        else .taken (m.setPipe id (held ++ octets.take room)) (octets.drop room)

inductive ReadResult
  | octets (m : Machine) (octets : List UInt8)
  | ended
  | later

def read (m : Machine) (ch : Channel) (most : Nat) : ReadResult :=
  match ch with
  | .zeros => .octets m (List.replicate (min most 65536) 0)
  | .pipe id =>
    match m.pipes.lookup id with
    | none => .ended
    | some held =>
      if held.isEmpty then
        if m.children.any (writesTo · id) then .later else .ended
      else .octets (m.setPipe id (held.drop most)) (held.take most)
  | _ => .ended

def openForReading (m : Machine) (cwd : Location) (p : Path) :
    Except FileError (Machine × Channel) :=
  match m.tree.stat cwd p with
  | .ok (_, .device .zero) => .ok (m, .zeros)
  | .ok (_, .device .null) => .ok (m, .nothing)
  | .ok (_, .file octets _) =>
    let (m, id) := m.newPipe octets
    .ok (m, .pipe id)
  | .ok (_, _) => .error .isDirectory
  | .error e => .error e

/-- A channel that writes to a file, emptied first unless it is appended to. -/
def openForWriting (m : Machine) (cwd : Location) (p : Path) (appended : Bool) :
    Except FileError (Machine × Channel) := do
  match m.tree.stat cwd p with
  | .ok (_, .device _) => return (m, .nothing)
  | _ =>
    let tree ← if appended then m.tree.appendOctets cwd p [] else m.tree.writeOctets cwd p []
    match tree.stat cwd p with
    | .ok (loc, _) => return ({ m with tree }, .file loc)
    | .error e => throw e

def endChild (m : Machine) (id : Nat) (ending : Ending) : Machine :=
  { m with children := m.children.map fun c =>
      if c.id == id && c.ending.isNone then { c with ending := some ending, tasks := [] } else c }

def killGroup (m : Machine) (group : Nat) (signal : Nat) : Machine :=
  { m with children := m.children.map fun c =>
      if c.group == group && c.ending.isNone then
        { c with ending := some (.killed signal), tasks := [] }
      else c }

/-- Traps that a copy of a child keeps: signals that are passed over stay so. -/
def keptTraps (traps : List (Nat × String)) : List (Nat × String) :=
  traps.filter fun t => t.1 != 0 && t.2 == ""

def fork (m : Machine) (c : Child) (tasks : List Task) (streams : Streams) : Machine × Nat :=
  let child : Child := { c with
    id := m.nextId
    tasks, streams
    traps := keptTraps c.traps
    jobs := []
    ending := none }
  ({ m with children := m.children ++ [child], nextId := m.nextId + 1 }, m.nextId)

end Machine

namespace Child

def site (c : Child) (tree : FileTree) : Site := ⟨tree, c.cwd, c.vars, {}⟩

def scope (c : Child) (tree : FileTree) : Shell.Scope where
  vars := c.vars
  parameters := c.parameters
  status := c.status
  shell := c.shell
  background := c.jobs.head?
  site := c.site tree

def push (c : Child) (tasks : List Task) : Child := { c with tasks := tasks ++ c.tasks }

def assign (c : Child) (name value : String) : Child :=
  { c with vars := Environment.assign c.vars name value }

def say (text : String) : Task := .output false (Text.encodeUtf8 text)

def complain (text : String) : Task := .output true (Text.encodeUtf8 text)

/-- The name by which a shell's messages begin, with the line they concern. -/
def messageHead (c : Child) : String :=
  let name := c.parameters.headD "sh"
  match c.dialect with
  | .plain => s!"{name}: {c.line}: "
  | .extended => s!"{name}: line {c.line}: "

/-- Puts tasks before those that are left, the first of which may fail without harm. -/
def pushLenient (c : Child) (first : List Task) (then_ : List Task) : Child :=
  if c.strict then c.push (.strictly false :: first ++ .strictly true :: then_)
  else c.push (first ++ then_)

end Child

end SnippetRunner
