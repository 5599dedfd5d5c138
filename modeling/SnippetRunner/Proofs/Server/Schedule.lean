import Mathlib.Logic.Relation
import SnippetRunner.Server.Time
import SnippetRunner.Proofs.Success
import SnippetRunner.Proofs.Output.Publishing

/-!
Schedules of a server with one worker. Submitters make their jobs pending and then put them
in the queue, cancellers tell jobs to stop, and the worker makes its moves, in any order and
with anything else happening on the host in between. What comes of a job is left open.
-/
namespace SnippetRunner.Server

variable {s s' : Server} {worker : Nat} {job : Job}

/-- Nothing changed that a worker or a submitter goes by. -/
structure Steady (s s' : Server) : Prop where
  board : s'.board = s.board
  workers : s'.workers = s.workers
  sink : s'.sink = s.sink

/-- What may come of a moment of work on a job: it goes on, or it ends in one of three ways. -/
inductive Turn (s : Server) (worker : Nat) (job : Job) : Server → Prop
  | proceeded (activity : Activity) :
    Turn s worker job (s.setWorker worker (.working job activity))
  | failed (failure : Failure) : Turn s worker job (s.concludeFailure worker job failure)
  | ran (report : RunReport) : Turn s worker job (s.concludeRun worker job report)
  | cleaned : Turn s worker job (s.concludeClean worker job)

/-- A server with what was seen of it. -/
structure Watched where
  server : Server
  /-- Jobs whose submitters made them pending and did not put them in the queue so far. -/
  entered : List Job := []
  /-- Everything that was put in the queue; a gap is a request to stop. -/
  puts : List (Option Job) := []
  /-- Jobs that were struck off. -/
  finished : List Job := []
  published : List OutputRecord := []

/-- The server changes, and records that were published in between are seen. -/
def Watched.after (w : Watched) (s : Server) : Watched :=
  { w with server := s, published := w.published ++ s.sink.since w.server.sink.seq }

def striking : Option WorkerState → List Job
  | some (.closing job) => [job]
  | some (.failing job) => [job]
  | _ => []

inductive Step (w : Watched) : Watched → Prop
  /-- Starting again while the worker lives is allowed. -/
  | start : w.server.workers = [] ∨ w.server.active.any w.server.isAlive →
    Step w (w.after w.server.start.1)
  | enter (job : Job) :
    Step w { w with
      server := { w.server with board := w.server.board.enter job }
      entered := job :: w.entered }
  | put (job : Job) : job ∈ w.entered →
    Step w { w with
      server := { w.server with board := w.server.board.put job }
      entered := w.entered.erase job
      puts := w.puts ++ [some job] }
  | putStop :
    Step w { w with
      server := { w.server with board := w.server.board.putStop }
      puts := w.puts ++ [none] }
  | cancel (id : String) : Step w (w.after (w.server.cancel id).1)
  | cancelAll (close : Bool) : Step w (w.after (w.server.cancelAll close).1)
  | aside (s : Server) : Steady w.server s → Step w (w.after s)
  | work (s : Server) : w.server.stepWorker 0 = .moved s →
    Step w { w.after s with finished := w.finished ++ striking w.server.workers[0]? }
  | turn (job : Job) (activity : Activity) (mid s : Server) :
    w.server.workers[0]? = some (.working job activity) → Steady w.server mid →
    Turn mid 0 job s → Step w (w.after s)

abbrev Run : Watched → Watched → Prop := Relation.ReflTransGen Step

namespace Steady

theorem refl (s : Server) : Steady s s := ⟨rfl, rfl, rfl⟩

theorem trans {s₁ s₂ s₃ : Server} (h₁ : Steady s₁ s₂) (h₂ : Steady s₂ s₃) : Steady s₁ s₃ :=
  ⟨h₂.board.trans h₁.board, h₂.workers.trans h₁.workers, h₂.sink.trans h₁.sink⟩

end Steady

/-- Nor did the worker change that callers wait for. -/
structure Quiet (s s' : Server) : Prop extends Steady s s' where
  active : s'.active = s.active

/-- And the work directory was left to whom it belonged, or a certain worker holds it now. -/
structure Prepared (s : Server) (worker : Nat) (s' : Server) : Prop extends Quiet s s' where
  holder : s'.holder = s.holder ∨ s'.holder = some worker

theorem Quiet.refl (s : Server) : Quiet s s := ⟨.refl s, rfl⟩

theorem Quiet.trans {s₁ s₂ s₃ : Server} (h₁ : Quiet s₁ s₂) (h₂ : Quiet s₂ s₃) : Quiet s₁ s₃ :=
  ⟨h₁.toSteady.trans h₂.toSteady, h₂.active.trans h₁.active⟩

theorem quiet_host (s : Server) (h : Host) : Quiet s { s with host := h } := ⟨⟨rfl, rfl, rfl⟩, rfl⟩

theorem quiet_note (s : Server) (level : LogLevel) (text : String) : Quiet s (s.note level text) :=
  quiet_host s _

theorem quiet_act {α : Type} (s : Server) (a : Act α) : Quiet s (s.act a).1 :=
  ⟨⟨rfl, rfl, rfl⟩, rfl⟩

theorem steady_host (s : Server) (h : Host) : Steady s { s with host := h } := ⟨rfl, rfl, rfl⟩

theorem steady_note (s : Server) (level : LogLevel) (text : String) :
    Steady s (s.note level text) := ⟨rfl, rfl, rfl⟩

theorem steady_act {α : Type} (s : Server) (a : Act α) : Steady s (s.act a).1 := ⟨rfl, rfl, rfl⟩

@[simp] theorem queue_enter (b : Board) (job : Job) : (b.enter job).queue = b.queue := by
  unfold Board.enter
  split <;> rfl

theorem steady_cancel (s : Server) (id : String) : Steady s (s.cancel id).1 := by
  unfold cancel
  split
  · exact .refl s
  · exact ⟨rfl, rfl, rfl⟩

theorem steady_cancelAll (s : Server) (close : Bool) : Steady s (s.cancelAll close).1 :=
  ⟨rfl, rfl, rfl⟩

theorem quiet_release (s : Server) (worker : Nat) : Quiet s (s.release worker) := by
  unfold release
  split
  · exact ⟨⟨rfl, rfl, rfl⟩, rfl⟩
  · exact .refl s

theorem steady_release (s : Server) (worker : Nat) : Steady s (s.release worker) :=
  (quiet_release s worker).toSteady

open Success in
/-- Acting on files changes the files and nothing else of the server. -/
theorem act_files {α : Type} (s : Server) (f : Files α) :
    s.act (Act.files f) =
      ({ s with host := s.host.withTree (outcome f s.host.machine.tree).2 },
        (outcome f s.host.machine.tree).1) := by
  have hresult := result_files f s.host
  unfold result at hresult
  unfold act
  rw [hresult]

open Success in
theorem start_eq {p : Path} (hactive : s.active = none)
    (h : (outcome s.workspace.ensure s.host.machine.tree).1 = .ok p) :
    ∃ host, s.start = ({ s with
      host := host
      active := some s.workers.length
      workers := s.workers ++ [.waiting] }, .ok ()) := by
  unfold start
  rw [if_neg (by simp [hactive]), act_files, h]
  exact ⟨_, rfl⟩

theorem prepared_act {α : Type} (s : Server) (worker : Nat) (a : Act α) :
    Prepared s worker (s.act a).1 := ⟨quiet_act s a, .inl rfl⟩

theorem beginClean_turn (s : Server) (worker : Nat) (job : Job) :
    ∃ mid, Prepared s worker mid ∧ Turn mid worker job (s.beginClean worker job) := by
  have hact := prepared_act s worker (Act.files s.workspace.clean)
  unfold beginClean
  split
  · next mid failure hmid =>
    rw [hmid] at hact
    exact ⟨mid, hact, .failed failure⟩
  · next mid hmid =>
    rw [hmid] at hact
    refine ⟨_, ?_, .proceeded _⟩
    exact ⟨hact.toQuiet.trans (quiet_host mid _), hact.holder⟩

theorem beginRun_turn (s : Server) (worker : Nat) (job : Job) (request : Option RunRequest) :
    ∃ mid, Prepared s worker mid ∧ Turn mid worker job (s.beginRun worker job request) := by
  unfold beginRun
  cases request with
  | none => exact ⟨s, ⟨.refl s, .inl rfl⟩, .failed _⟩
  | some request =>
    have hact := prepared_act s worker (s.resolveRequest request job.id)
    dsimp only
    split
    · next mid failure hmid =>
      rw [hmid] at hact
      exact ⟨mid, hact, .failed failure⟩
    · next mid r hmid =>
      rw [hmid] at hact
      exact ⟨mid, hact, .proceeded _⟩

theorem beginFiles_turn (s : Server) (worker : Nat) (job : Job) (r : Resolved) :
    ∃ mid, Prepared s worker mid ∧ Turn mid worker job (s.beginFiles worker job r) := by
  have hact : Prepared s worker (act { s with holder := some worker }
      (startResolved { s with holder := some worker } r job.id job.token)).1 :=
    ⟨⟨⟨rfl, rfl, rfl⟩, rfl⟩, .inr rfl⟩
  unfold beginFiles
  dsimp only
  split
  · next mid failure hmid =>
    rw [hmid] at hact
    exact ⟨mid, hact, .failed failure⟩
  · next mid outcome hmid =>
    rw [hmid] at hact
    exact ⟨mid, hact, .ran _⟩
  · next mid plan hmid =>
    rw [hmid] at hact
    exact ⟨mid, hact, .proceeded _⟩

theorem stepChain_turn {language : String} {level : Level} {chain : Chain}
    (h : s.stepChain worker job language level chain = .moved s') :
    ∃ mid, Prepared s worker mid ∧ Turn mid worker job s' := by
  have hmid (host : Host) : Prepared s worker { s with host } := ⟨quiet_host s host, .inl rfl⟩
  unfold stepChain at h
  split at h
  · cases h
    exact ⟨_, hmid _, .proceeded _⟩
  · cases h
  · cases h
    exact ⟨_, hmid _, .ran _⟩
  · cases h
    exact ⟨_, hmid _, .failed _⟩

/-- A moment of work on a job is a turn, before which only the host changes. -/
theorem stepActivity_turn {activity : Activity}
    (h : s.stepActivity worker job activity = .moved s') :
    ∃ mid, Prepared s worker mid ∧ Turn mid worker job s' := by
  unfold stepActivity at h
  dsimp only at h
  cases activity with
  | starting =>
    cases hkind : job.kind with
    | clean =>
      simp only [hkind] at h
      split at h
      · cases h
        exact beginClean_turn s worker job
      · cases h
    | run request =>
      simp only [hkind] at h
      cases h
      exact beginRun_turn s worker job request
  | resolved r =>
    dsimp only at h
    split at h
    · cases h
      exact beginFiles_turn s worker job r
    · cases h
  | running language level chain => exact stepChain_turn h
  | settling until_ =>
    dsimp only at h
    split at h
    · cases h
      exact ⟨s, ⟨.refl s, .inl rfl⟩, .cleaned⟩
    · cases h

/-- What a worker does when it moves: it takes what is at the head of the queue, begins a job,
works on it, or strikes it off. -/
inductive WorkerMove (s : Server) (k : Nat) : WorkerState → Server → Prop
  | takes (item : Option Job) (rest : List (Option Job)) : s.board.queue = item :: rest →
    WorkerMove s k .waiting
      ({ s with board := { s.board with queue := rest } }.setWorker k
        (item.elim .stopped .holding))
  | begins (job : Job) :
    WorkerMove s k (.holding job)
      ({ s with board := s.board.begin_ job }.setWorker k (.working job .starting))
  | works (job : Job) (activity : Activity) (s' : Server) :
    s.stepActivity k job activity = .moved s' → WorkerMove s k (.working job activity) s'
  | closes (job : Job) :
    WorkerMove s k (.closing job) ({ s with board := s.board.finish job }.setWorker k .waiting)
  | fails (job : Job) :
    WorkerMove s k (.failing job) ({ s with board := s.board.finish job }.setWorker k .stopped)

theorem stepWorker_move {state : WorkerState} (hstate : s.workers[worker]? = some state)
    (h : s.stepWorker worker = .moved s') : WorkerMove s worker state s' := by
  simp only [stepWorker, hstate] at h
  cases state with
  | waiting =>
    unfold Board.take? at h
    cases hqueue : s.board.queue with
    | nil => simp [hqueue] at h
    | cons item rest =>
      cases item <;> simp only [hqueue, Move.moved.injEq] at h <;> subst h <;>
        exact .takes _ rest hqueue
  | holding job =>
    cases h
    exact .begins job
  | working job activity => exact .works job activity s' h
  | closing job =>
    cases h
    exact .closes job
  | failing job =>
    cases h
    exact .fails job
  | stopped => cases h

theorem stepWorker_cases (h : s.stepWorker worker = .moved s') :
    ∃ state, s.workers[worker]? = some state ∧ WorkerMove s worker state s' := by
  cases hstate : s.workers[worker]? with
  | none => simp [stepWorker, hstate] at h
  | some state => exact ⟨state, rfl, stepWorker_move hstate h⟩

end SnippetRunner.Server
