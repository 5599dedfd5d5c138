import SnippetRunner.Network.Script
import SnippetRunner.Proofs.Server.Effects

/-!
Cancelling a job that waits in the queue. Whatever happens later, no child is started for it.
The token is looked at by the chain of a job and by nothing else, though: a job that is given to
a delegate on the network still sends its request, and a clean still empties the work directory.
-/
namespace SnippetRunner.Server

variable {s s' t : Server} {k : Nat} {job : Job} {activity : Activity}

/-- A job is pending and in the queue, and no worker works on it. -/
structure Waiting (s : Server) (job : Job) : Prop where
  queued : some job ∈ s.board.queue
  pending : s.board.find? job.id = some job
  untaken : ∀ (k : Nat) (activity : Activity), s.workers[k]? ≠ some (.working job activity)

/-- One step of a schedule. Callers and all that goes on besides leave the workers alone, and
cancelled tokens cancelled. -/
inductive Event (s : Server) : Server → Prop
  | work (k : Nat) (s' : Server) : s.stepWorker k = .moved s' → Event s s'
  | start : Event s s.start.1
  | aside (s' : Server) : s'.workers = s.workers → s.host.cancelled ⊆ s'.host.cancelled →
    Event s s'

abbrev Schedule : Server → Server → Prop := Relation.ReflTransGen Event

section Callers

theorem enter_event (s : Server) (job : Job) :
    Event s { s with board := s.board.enter job } :=
  .aside _ rfl fun _ h => h

theorem submit_event (s : Server) (id : String) (kind : JobKind) : Event s (s.submit id kind) :=
  .aside _ rfl fun _ h => h

/-- What no move of a sweep changes, the sweep does not change. -/
theorem sweep_keeps {α : Type} (field : Host → α) {move : Host → Nat → Host}
    (hmove : ∀ h child, field (move h child) = field h) (children : List Nat) (h : Host) :
    field (children.foldl move h) = field h := by
  induction children generalizing h with
  | nil => rfl
  | cons child rest ih => exact (ih _).trans (hmove h child)

theorem killJob_cancelled (h : Host) (job : String) :
    (h.killJob job).1.cancelled = h.cancelled := by
  refine sweep_keeps Host.cancelled ?_ (h.tracker.ofJob job) h
  exact fun _ _ => rfl

theorem killAll_cancelled (h : Host) : h.killAll.1.cancelled = h.cancelled := by
  refine sweep_keeps Host.cancelled ?_ h.tracker.children h
  exact fun _ _ => rfl

theorem cancelTokens_sub (tokens : List Nat) (h : Host) :
    h.cancelled ⊆ (tokens.foldl Host.cancel h).cancelled := by
  induction tokens generalizing h with
  | nil => exact fun _ hmem => hmem
  | cons token rest ih => exact fun _ hmem => ih _ (Chain.Watched.cancel_sub h token hmem)

theorem cancelAll_cancelled (s : Server) (close : Bool) :
    (s.cancelAll close).1.host.cancelled =
      (s.board.tokens.foldl Host.cancel s.host).cancelled := by
  unfold cancelAll
  cases close with
  | false => exact killAll_cancelled ..
  | true => exact killAll_cancelled ..

theorem cancel_event (s : Server) (id : String) : Event s (s.cancel id).1 := by
  unfold cancel
  split
  · exact .aside _ rfl fun _ h => h
  · next job _ =>
    refine .aside _ rfl fun token h => ?_
    show token ∈ ((s.host.cancel job.token).killJob id).1.cancelled
    rw [killJob_cancelled]
    exact Chain.Watched.cancel_sub s.host job.token h

theorem cancelAll_event (s : Server) (close : Bool) : Event s (s.cancelAll close).1 := by
  refine .aside _ rfl ?_
  rw [cancelAll_cancelled]
  exact cancelTokens_sub ..

end Callers

/-- A job is to stop, and nothing of it was run. -/
structure Unrun (s : Server) (job : Job) : Prop where
  cancelled : s.host.isCancelled job.token = true
  unbegun : ∀ (k : Nat) (language : String) (level : Level) (chain : Chain),
    s.workers[k]? = some (.working job (.running language level chain)) → Unbegun job chain

/-- Starting a worker makes the work directory, and does nothing else to the host. -/
theorem start_sends (s : Server) : Sends [] s.host s.start.1.host := by
  have hensured := ((Act.gentle_files (Workspace.ensure_grows s.workspace)).touches s.host).toSends
  rw [Success.result_files] at hensured
  unfold start
  split
  · exact .refl _
  · rw [act_files]
    cases (Success.outcome s.workspace.ensure s.host.machine.tree).1 with
    | error failure => exact hensured
    | ok base => exact hensured.trans (note_touches ..).toSends

theorem start_workers (s : Server) :
    s.start.1.workers = s.workers ∨ s.start.1.workers = s.workers ++ [.waiting] := by
  rcases start_cases s with ⟨-, hsame⟩ | ⟨-, ⟨hquiet, -⟩ | ⟨mid, hquiet, -, hstarted⟩⟩
  · exact .inl (by rw [hsame])
  · exact .inl hquiet.workers
  · exact .inr (by rw [hstarted, ← hquiet.workers])

theorem Unrun.work (h : Unrun s job) (hmove : s.stepWorker k = .moved s') : Unrun s' job := by
  have hfollows := stepWorker_follows hmove
  refine ⟨(Host.isCancelled_congr hfollows.cancelled _).trans h.cancelled,
    fun i language level chain hi => ?_⟩
  by_cases hik : i = k
  · subst hik
    rcases hfollows.chain job chain ⟨language, level, hi⟩ with
      hfresh | ⟨before, ⟨language', level', hbefore⟩, hstep⟩
    · exact hfresh
    · -- The look before its first step saw the token.
      obtain ⟨hidle, hplan⟩ := h.unbegun i language' level' before hbefore
      obtain ⟨o, hdone⟩ := step_unwanted hidle (hplan.token ▸ h.cancelled)
      rw [hdone] at hstep
      cases hstep
  · obtain ⟨next, hworkers⟩ := (stepWorker_actsOn hmove).1.workers
    rw [hworkers, List.getElem?_set_ne (Ne.symm hik)] at hi
    exact h.unbegun i language level chain hi

theorem Unrun.event (h : Unrun s job) (hevent : Event s s') : Unrun s' job := by
  cases hevent with
  | work k _ hmove => exact h.work hmove
  | start =>
    refine ⟨(Host.isCancelled_congr (start_sends s).cancelled _).trans h.cancelled,
      fun i language level chain hi => ?_⟩
    rcases start_workers s with hsame | hmore
    · exact h.unbegun i language level chain (hsame ▸ hi)
    · rw [hmore, List.getElem?_append] at hi
      split at hi
      · exact h.unbegun i language level chain hi
      · cases List.mem_singleton.mp (List.mem_of_getElem? hi)
  | aside _ hworkers hsub =>
    exact ⟨Chain.Watched.cancelled_mono hsub h.cancelled,
      fun i language level chain hi => h.unbegun i language level chain (hworkers ▸ hi)⟩

theorem Unrun.schedule (h : Unrun s job) (hlater : Schedule s s') : Unrun s' job := by
  induction hlater with
  | refl => exact h
  | tail _ hevent ih => exact ih.event hevent

theorem isCancelled_cancel (h : Host) (token : Nat) :
    (h.cancel token).isCancelled token = true := by
  unfold Host.cancel
  split
  · assumption
  · simp [Host.isCancelled]

theorem Waiting.unrun (h : Waiting s job) : Unrun (s.cancel job.id).1 job := by
  unfold cancel
  rw [h.pending]
  refine ⟨?_, fun k language level chain hk => absurd hk (h.untaken k _)⟩
  exact (Host.isCancelled_congr (killJob_cancelled ..) _).trans (isCancelled_cancel ..)

/-- Once a waiting job is cancelled, no later moment of work on it starts a child. What else it
does is as if it had not been cancelled: it sends a request when its code is given to a service
whose address can be read, and empties the work directory when it is a clean; otherwise it sends
nothing and, until its record is published, removes nothing. -/
theorem cancel_waiting (hwaiting : Waiting s job) (hlater : Schedule (s.cancel job.id).1 s')
    (hworker : s'.workers[k]? = some (.working job activity))
    (hmove : s'.stepWorker k = .moved t) :
    (s.cancel job.id).2 = true ∧
    t.host.machine.children = s'.host.machine.children ∧
    t.host.wire.sent = s'.host.wire.sent ++ s'.requested activity ∧
    ∃ mid, mid.workers = s'.workers ∧
      FileTree.Grown (s'.wiped job activity) mid.host.machine.tree ∧ Turn mid k job t := by
  have hunrun := hwaiting.unrun.schedule hlater
  have hactivity : s'.stepActivity k job activity = .moved t := by
    simpa only [stepWorker, hworker] using hmove
  obtain ⟨⟨mid, hworkers, htouches, hturn⟩, -⟩ := stepActivity_effects hactivity hunrun.cancelled
    fun language level chain hrunning =>
      hunrun.unbegun k language level chain (hrunning ▸ hworker)
  have hsends := htouches.toSends.trans hturn.sends
  rw [List.append_nil] at hsends
  refine ⟨?_, hsends.children, hsends.sent, mid, hworkers, htouches.grown, hturn⟩
  unfold cancel
  rw [hwaiting.pending]

def cleanJob : Job := ⟨"clean", .clean, 1⟩

/-- A server with a file in its work directory, whose worker waits for the first job. -/
def clutteredServer : Server where
  settings := { home := ⟨.root, []⟩, workDir := ⟨.root, ["work"]⟩ }
  catalog := ⟨[], [], []⟩
  delegate := .interpreters .standard
  workspace := ⟨⟨.root, ["work"]⟩, []⟩
  engine := {}
  limits := {}
  host := {
    machine := .start ⟨[(["work"], .directory), (["work", "main.sh"], .file [] false)]⟩
    cwd := []
    env := []
    wire := .down }
  sink := { path := none, history := 2 }
  board := ⟨[some cleanJob], [("clean", cleanJob)], none⟩
  workers := [.waiting]
  active := some 0

/-- The same server when the job was cancelled and the worker has taken it. -/
def cleaningServer : Server :=
  { clutteredServer with
    host := clutteredServer.host.cancel 1
    board := ⟨[], [("clean", cleanJob)], some cleanJob⟩
    workers := [.working cleanJob .starting] }

/-- A clean that was cancelled while it waited empties the work directory all the same. -/
theorem cancel_waiting_clean : Waiting clutteredServer cleanJob ∧
    Schedule (clutteredServer.cancel "clean").1 cleaningServer ∧
    cleaningServer.workers[0]? = some (.working cleanJob .starting) ∧
    ∃ t, cleaningServer.stepWorker 0 = .moved t ∧
      (clutteredServer.cancel "clean").2 = true ∧
      t.host.machine.children = [] ∧ t.host.wire.sent = [] ∧
      cleaningServer.host.machine.tree.find? ["work", "main.sh"] = some (.file [] false) ∧
      t.host.machine.tree.find? ["work", "main.sh"] = none := by
  have hwaiting : Waiting clutteredServer cleanJob := by
    refine ⟨List.mem_singleton.mpr rfl, rfl, fun k activity hk => ?_⟩
    cases List.mem_singleton.mp (List.mem_of_getElem? hk)
  have htaken : Schedule (clutteredServer.cancel "clean").1 cleaningServer :=
    (Relation.ReflTransGen.single (.work 0 _ rfl)).tail (.work 0 _ rfl)
  have hmove : cleaningServer.stepWorker 0 = .moved (cleaningServer.beginClean 0 cleanJob) := rfl
  obtain ⟨hcancelled, hchildren, hsent, -⟩ := cancel_waiting hwaiting htaken rfl hmove
  refine ⟨hwaiting, htaken, rfl, _, hmove, hcancelled, hchildren, hsent, rfl, ?_⟩
  cbv

end SnippetRunner.Server
