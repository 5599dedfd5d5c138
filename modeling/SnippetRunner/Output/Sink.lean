import SnippetRunner.Host
import SnippetRunner.Output.Record

/-!
Where results are published. The latest record is written to a file, a bounded number of
records is kept for those who ask, and every listener is told of every record in the order of
subscription. A file that cannot be written changes nothing else.
-/
namespace SnippetRunner

structure Listener where
  name : String
  /-- A listener that fails is heard of no less. -/
  failing : Bool := false
  deriving DecidableEq, Repr

structure Sink where
  path : Option Path
  history : Int
  /-- The number of the record that was published last. -/
  seq : Nat := 0
  /-- Records that are kept, oldest first. -/
  records : List OutputRecord := []
  listeners : List Listener := []
  /-- What listeners were told, latest first. -/
  heard : List (String × OutputRecord) := []
  deriving DecidableEq, Repr

namespace Sink

def logName : String := "snipexec.sink"

/-- How many records are kept; at least one. -/
def capacity (s : Sink) : Nat := (max s.history 1).toNat

def subscribe (s : Sink) (l : Listener) : Sink :=
  { s with listeners := s.listeners ++ [l] }

def latest? (s : Sink) : Option OutputRecord := s.records.getLast?

def since (s : Sink) (after : Int) : List OutputRecord :=
  s.records.filter fun r => decide (after < (r.seq : Int))

def keepLast {α : Type} (n : Nat) (items : List α) : List α :=
  items.drop (items.length - n)

def enter (s : Sink) (result : JobResult) (now : Moment) : Sink × OutputRecord :=
  let record : OutputRecord := ⟨s.seq + 1, result, now⟩
  ({ s with
      seq := s.seq + 1
      records := keepLast s.capacity (s.records ++ [record]) }, record)

/-- Uses up a number for a result that turned out to be malformed. -/
def skip (s : Sink) : Sink := { s with seq := s.seq + 1 }

def tell (s : Sink) (record : OutputRecord) : Sink :=
  { s with heard := (s.listeners.map fun l => (l.name, record)).reverse ++ s.heard }

/-- The text written to a file beside the output file, which then takes its place. -/
def writeFile (t : FileTree) (cwd : Location) (path scratch : Path) (text : String) :
    FileTree × Option FileFault :=
  match t.makeDirectories cwd path.parent with
  | (t, some fault) => (t, some fault)
  | (t, none) =>
    match t.writeText cwd scratch text with
    | .error e => (t, some (.at_ e scratch.toString))
    | .ok t =>
      match t.replaceFile cwd scratch path with
      | .ok t => (t, none)
      | .error e =>
        let shown := Text.quote scratch.toString ++ " -> " ++ Text.quote path.toString
        (t, some ⟨e, shown⟩)

/-- Writes the latest record to the output file; a refusal is only noted. -/
def store (s : Sink) (h : Host) (record : OutputRecord) : Host × Except Failure Unit :=
  match s.path with
  | none => (h, .ok ())
  | some path =>
    match path.withSuffix? ".tmp" with
    | none => (h, .error (.noName path))
    | some scratch =>
      let (tree, fault) := writeFile h.machine.tree h.cwd path scratch record.page
      let h := h.withTree tree
      match fault with
      | none => (h, .ok ())
      | some fault =>
        if fault.error.isSystem then
          (h.note logName .warning s!"Unable to write output file {path}: {fault.message}", .ok ())
        else (h, .error (.file fault))

def noteFailures (s : Sink) (h : Host) (record : OutputRecord) : Host :=
  (s.listeners.filter (·.failing)).foldl
    (fun h _ => h.note logName .error s!"Output listener failed for record {record.seq}") h

def publish (s : Sink) (h : Host) (result : JobResult) :
    Sink × Host × Except Failure OutputRecord :=
  let (s, record) := s.enter result h.now
  match s.store h record with
  | (h, .error failure) => (s, h, .error failure)
  | (h, .ok ()) => (s.tell record, s.noteFailures h record, .ok record)

end Sink

end SnippetRunner
