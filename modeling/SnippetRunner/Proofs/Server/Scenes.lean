import SnippetRunner.Proofs.Server.Custody

/-!
A server in use by many. Submitters, workers and cancellers share a board, and with others a
tracker. A call of `cancel` looks its job up in one critical section, sets the token after it, takes
a snapshot of the children listed under the name in another section and kills child by child after
that; cancelling all jobs does the same with all tokens and all children, and may close the tracker
in between. Each section is a step of its own, and the calls of a server are runs of such steps.
-/
namespace SnippetRunner.Server

variable {s s' : Server} {job : Job}

structure Idle (s s' : Server) : Prop extends Filed s s' where
  workers : s'.workers = s.workers
  tracker : s'.host.tracker = s.host.tracker
  cancelled : s'.host.cancelled = s.host.cancelled

/-- A call of `cancel`, for the job of a name, or of `cancelAll`, for no name, under way after a
critical section of its. -/
inductive Scene.Call
  /-- Tokens that were looked up and are still to be set, before the tracker may be closed. -/
  | marking (name : Option String) (tokens : List Nat) (close : Bool)
  /-- All tokens were set and no snapshot was taken. -/
  | looking (name : Option String)
  /-- The children of a snapshot that are still to be killed. -/
  | killing (name : Option String) (targets : List Nat)
  deriving DecidableEq

structure Scene.Appeal where
  name : Option String
  pending : List (String × Job)
  deriving DecidableEq

structure Scene where
  server : Server
  calls : List Scene.Call := []
  appeals : List Scene.Appeal := []
  submitted : List Job := []
  ledger : Tracker.Ledger := {}
  /-- Group kills that cancellers sent, with the names that they were sent for. -/
  kills : List (Option String × Nat) := []

namespace Scene

def targets (w : Scene) : Option String → List Nat
  | some name => w.server.host.tracker.ofJob name
  | none => w.server.host.tracker.children

def withHost (w : Scene) (host : Host) : Scene :=
  { w with server := { w.server with host } }

def withBoard (w : Scene) (board : Board) : Scene :=
  { w with server := { w.server with board } }

def enter (w : Scene) (job : Job) : Scene :=
  { w with
    server := { w.server with
      board := w.server.board.enter job
      nextToken := w.server.nextToken + 1 }
    submitted := job :: w.submitted }

def appeal (w : Scene) (name : Option String) : Scene :=
  { w with appeals := ⟨name, w.server.board.pending⟩ :: w.appeals }

def calling (w : Scene) (call : Call) : Scene :=
  { w with calls := call :: w.calls }

def next (w : Scene) (call call' : Call) : Scene :=
  { w with calls := call' :: w.calls.erase call }

def track (w : Scene) (change : Tracker.Change) : Scene :=
  { w.withHost { w.server.host with tracker := w.server.host.tracker.after (some change) } with
    ledger := w.ledger.enter w.server.host.tracker (some change) }

inductive Step (w : Scene) : Scene → Prop
  | enter (id : String) (kind : JobKind) : Step w (w.enter ⟨id, kind, w.server.nextToken⟩)
  | put (job : Job) : job ∈ w.submitted → Step w (w.withBoard (w.server.board.put job))
  | putStop : Step w (w.withBoard w.server.board.putStop)
  | start : Step w { w with server := w.server.start.1 }
  | work (k : Nat) (s : Server) : w.server.stepWorker k = .moved s → Step w { w with
      server := s
      ledger := w.ledger.enter w.server.host.tracker (w.server.change? k) }
  | track (change : Tracker.Change) : Step w (w.track change)
  | ask (id : String) (job : Job) : w.server.board.find? id = some job →
    Step w ((w.appeal (some id)).calling (.marking (some id) [job.token] false))
  | askAll (close : Bool) :
    Step w ((w.appeal none).calling (.marking none w.server.board.tokens close))
  | mark (name : Option String) (token : Nat) (tokens : List Nat) (close : Bool) :
    .marking name (token :: tokens) close ∈ w.calls →
    Step w ((w.withHost (w.server.host.cancel token)).next (.marking name (token :: tokens) close)
      (.marking name tokens close))
  | marked (name : Option String) : .marking name [] false ∈ w.calls →
    Step w (w.next (.marking name [] false) (.looking name))
  | shut (name : Option String) : .marking name [] true ∈ w.calls →
    Step w ((w.track .close).next (.marking name [] true) (.looking name))
  | look (name : Option String) : .looking name ∈ w.calls →
    Step w (w.next (.looking name) (.killing name (w.targets name)))
  | kill (name : Option String) (child : Nat) (targets : List Nat) :
    .killing name (child :: targets) ∈ w.calls →
    Step w { (w.withHost (w.server.host.killGroup child)).next (.killing name (child :: targets))
        (.killing name targets) with
      kills := (name, child) :: w.kills }
  | done (name : Option String) : .killing name [] ∈ w.calls →
    Step w { w with calls := w.calls.erase (.killing name []) }
  | aside (s : Server) : Idle w.server s → Step w { w with server := s }

abbrev Run : Scene → Scene → Prop := Relation.ReflTransGen Step

variable {w : Scene}

section Callers

theorem cancel_tracker (h : Host) (token : Nat) : (h.cancel token).tracker = h.tracker := by
  unfold Host.cancel
  split <;> rfl

theorem idle_host (s : Server) {host : Host} (htracker : host.tracker = s.host.tracker)
    (hcancelled : host.cancelled = s.host.cancelled) : Idle s { s with host } :=
  ⟨⟨rfl, rfl⟩, rfl, htracker, hcancelled⟩

/-- Submitting a job is making it pending, putting it in the queue and noting it. -/
theorem submit_run (w : Scene) (id : String) (kind : JobKind) :
    Run w { w.enter ⟨id, kind, w.server.nextToken⟩ with server := w.server.submit id kind } := by
  have henter := Step.enter id kind (w := w)
  have hput := Step.put _ (List.mem_cons_self ..) (w := w.enter ⟨id, kind, w.server.nextToken⟩)
  exact .tail (.tail (.single henter) hput) (.aside (w.server.submit id kind) (idle_host _ rfl rfl))

theorem calling_next (w : Scene) (call call' : Call) :
    (w.calling call).next call call' = w.calling call' := by
  simp [calling, next]

/-- A call sets all its tokens. -/
theorem marking_run (name : Option String) (tokens : List Nat) (close : Bool) (w : Scene) :
    Run (w.calling (.marking name tokens close))
      ((w.withHost (tokens.foldl Host.cancel w.server.host)).calling (.marking name [] close)) := by
  induction tokens generalizing w with
  | nil => exact .refl
  | cons token rest ih =>
    have hmark := Step.mark name token rest close (List.mem_cons_self ..)
      (w := w.calling (.marking name (token :: rest) close))
    change Step _ (((w.withHost (w.server.host.cancel token)).calling _).next _ _) at hmark
    rw [calling_next] at hmark
    exact .head hmark (ih _)

/-- A call kills the children of its snapshot. -/
theorem killing_run (say : Host → Nat → Host) (hsay : ∀ s child, Idle s { s with
      host := say s.host child }) (name : Option String) (targets : List Nat) (w : Scene) :
    Run (w.calling (.killing name targets))
      { w.withHost (targets.foldl (fun h child => (say h child).killGroup child) w.server.host) with
        kills := (targets.map fun child => (name, child)).reverse ++ w.kills } := by
  induction targets generalizing w with
  | nil =>
    have hdone := Step.done name (List.mem_cons_self ..) (w := w.calling (.killing name []))
    rw [calling, List.erase_cons_head] at hdone
    exact .single hdone
  | cons child rest ih =>
    let said := w.withHost (say w.server.host child)
    have hsaid : Step (w.calling (.killing name (child :: rest)))
        (said.calling (.killing name (child :: rest))) := .aside _ (hsay w.server child)
    have hkill := Step.kill name child rest (List.mem_cons_self ..)
      (w := said.calling (.killing name (child :: rest)))
    change Step _ { ((said.withHost _).calling _).next _ _ with kills := _ } at hkill
    rw [calling_next] at hkill
    have hrest := ih { said.withHost (said.server.host.killGroup child) with
      kills := (name, child) :: w.kills }
    rw [List.map_cons, List.reverse_cons, List.append_assoc]
    exact .head hsaid (.head hkill hrest)

/-- A call takes its snapshot and kills the children of it. -/
theorem sweep_run (say : Host → Nat → Host) (hsay : ∀ s child, Idle s { s with
      host := say s.host child }) (name : Option String) (w : Scene) :
    Run (w.calling (.looking name))
      { w.withHost ((w.targets name).foldl (fun h child => (say h child).killGroup child)
          w.server.host) with
        kills := ((w.targets name).map fun child => (name, child)).reverse ++ w.kills } := by
  have hlook := Step.look name (List.mem_cons_self ..) (w := w.calling (.looking name))
  rw [calling_next] at hlook
  exact .head hlook (killing_run say hsay name (w.targets name) w)

theorem idle_note (s : Server) (source : String) (level : LogLevel) (text : String) :
    Idle s { s with host := s.host.note source level text } :=
  idle_host s rfl rfl

theorem cancelTokens_tracker (tokens : List Nat) (h : Host) :
    (tokens.foldl Host.cancel h).tracker = h.tracker :=
  sweep_keeps Host.tracker cancel_tracker tokens h

/-- What a call of `cancel` for a pending job comes to that nobody disturbs: just the children
listed under its name are killed. -/
def afterCancel (w : Scene) (id : String) : Scene :=
  { w.appeal (some id) with
    server := (w.server.cancel id).1
    kills := ((w.targets (some id)).map fun child => (some id, child)).reverse ++ w.kills }

/-- What a call of `cancelAll` comes to that nobody disturbs. -/
def afterCancelAll (w : Scene) (close : Bool) : Scene :=
  { w.appeal none with
    server := (w.server.cancelAll close).1
    kills := ((w.targets none).map fun child => (none, child)).reverse ++ w.kills }

theorem cancel_run (w : Scene) {id : String} (hfound : w.server.board.find? id = some job) :
    Run w (w.afterCancel id) := by
  let marked := (w.appeal (some id)).withHost (w.server.host.cancel job.token)
  have hask := Step.ask id job hfound
  have hmark := marking_run (some id) [job.token] false (w.appeal (some id))
  have hmarked := Step.marked (some id) (List.mem_cons_self ..)
    (w := marked.calling (.marking (some id) [] false))
  rw [calling_next] at hmarked
  have hsweep := sweep_run (fun h child => h.note "snipexec.executor.process" .info
    s!"Killing process group {child} of job {id}") (fun s child => idle_note s ..) (some id) marked
  have htargets : marked.targets (some id) = w.targets (some id) :=
    congrArg (·.ofJob id) (cancel_tracker w.server.host job.token)
  have hcancel : (w.server.cancel id).1 =
      ({ w.server with host := ((w.server.host.cancel job.token).killJob id).1 }).note .info
        s!"Job {id} cancelled" := by
    rw [cancel, hfound]
  rw [afterCancel, hcancel, ← htargets]
  exact (Relation.ReflTransGen.head hask ((hmark.tail hmarked).trans hsweep)).tail
    (.aside _ (idle_note ..))

theorem cancelAll_run (w : Scene) (close : Bool) : Run w (w.afterCancelAll close) := by
  let marked := (w.appeal none).withHost (w.server.board.tokens.foldl Host.cancel w.server.host)
  have htargets : marked.targets none = w.targets none :=
    congrArg (·.children) (cancelTokens_tracker w.server.board.tokens w.server.host)
  have hask : Step w _ := .askAll close
  have hmark := marking_run none w.server.board.tokens close (w.appeal none)
  have hsweep := sweep_run (fun h child => h.note "snipexec.executor.process" .info
    s!"Killing process group {child}") (fun s child => idle_note s ..) none
  refine .head hask (hmark.trans ?_)
  rw [afterCancelAll, ← htargets]
  cases close with
  | false =>
    have hmarked := Step.marked none (List.mem_cons_self ..)
      (w := marked.calling (.marking none [] false))
    rw [calling_next] at hmarked
    exact .head hmarked (hsweep marked)
  | true =>
    have hshut := Step.shut none (List.mem_cons_self ..)
      (w := marked.calling (.marking none [] true))
    change Step _ (((marked.track .close).calling _).next _ _) at hshut
    rw [calling_next] at hshut
    exact .head hshut (hsweep (marked.track .close))

/-- Working for a while is a run in which callers do nothing. -/
theorem workFor_run (fuel : Nat) (goal : Server → Bool) (limit : Option Nat) (w : Scene) :
    ∃ w', Run w w' ∧ w'.server = workFor fuel goal limit w.server := by
  have hproceeds := workFor_proceeds fuel goal limit w.server
  generalize workFor fuel goal limit w.server = last at hproceeds ⊢
  induction hproceeds with
  | refl => exact ⟨w, .refl, rfl⟩
  | tail _ hstep ih =>
    obtain ⟨mid, hrun, rfl⟩ := ih
    cases hstep with
    | move k _ hk => exact ⟨_, hrun.tail (.work k _ hk), rfl⟩
    | pass children t =>
      have hidle : Idle mid.server { mid.server with
        host := mid.server.host.pass children t } := idle_host mid.server rfl rfl
      exact ⟨_, hrun.tail (.aside _ hidle), rfl⟩

end Callers

end Scene

end SnippetRunner.Server
