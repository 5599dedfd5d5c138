import SnippetRunner.Proofs.Execution.Steps
import SnippetRunner.Proofs.Execution.Touching
import SnippetRunner.Proofs.Server.Sessions

/-!
What the work on a job does to the host, move by move: which requests it sends, which tree its
files are added to, and that it lets children and tokens alone as long as no step of a chain is
begun. The record of the job, once published, does not change any of this.
-/
namespace SnippetRunner.Server

open Success

variable {s s' mid : Server} {k : Nat} {job : Job}

theorem resolveRequest_gentle (s : Server) (request : RunRequest) (job : String) :
    Act.Gentle (s.resolveRequest request job) := by
  unfold resolveRequest
  refine (Act.gentle_lift _).bind fun filetype => ?_
  split
  · split
    · exact Act.gentle_throw _
    · exact (Act.gentle_note ..).bind fun _ => (Fallback.resolve_gentle ..).bind fun _ =>
        Act.gentle_pure _
  · exact Act.gentle_get.bind fun _ => (Act.gentle_lift _).bind fun _ =>
      (Act.gentle_noteAll _).bind fun _ => (Act.gentle_noteAll _).bind fun _ =>
        Act.gentle_pure _

/-- The requests that a moment of work on a job sends. -/
def requested (s : Server) (activity : Activity) : List HttpRequest :=
  match activity, s.delegate with
  | .resolved (.delegated name code), .remote service =>
    match (outcome s.workspace.ensure s.host.machine.tree).1 with
    | .ok _ => service.sent name code s.host.wire
    | .error _ => []
  | _, _ => []

/-- The file tree that a moment of work on a job adds to: cleaning empties the work directory. -/
def wiped (s : Server) (job : Job) (activity : Activity) : FileTree :=
  match activity, job.kind with
  | .starting, .clean => (outcome s.workspace.clean s.host.machine.tree).2
  | _, _ => s.host.machine.tree

theorem startResolved_touches (s : Server) (r : Resolved) (job : String) (token : Nat) :
    Touches (s.requested (.resolved r)) s.host
      (result (s.startResolved r job token) s.host).2 := by
  cases r with
  | described d level snippet =>
    have hgentle : Act.Gentle (s.startResolved (.described d level snippet) job token) :=
      (Act.gentle_files (Workspace.materialize_grows ..)).bind fun _ =>
        (Act.gentle_note ..).bind fun _ => Act.gentle_get.bind fun _ =>
          (Act.gentle_lift _).bind fun _ => Act.gentle_pure _
    exact hgentle.touches s.host
  | delegated name code =>
    cases hdelegate : s.delegate with
    | interpreters table =>
      simp only [requested, hdelegate]
      exact (Fallback.begin_gentle s.fallback hdelegate name code job token).touches s.host
    | remote service =>
      simp only [requested, hdelegate]
      exact Fallback.begin_remote s.fallback hdelegate name code job token s.host

theorem startResolved_for (s : Server) (r : Resolved) (job : String) (token : Nat) :
    Act.Gives (Started.For job token) (s.startResolved r job token) := by
  cases r with
  | described d level snippet =>
    refine (Act.gives_any _).bind fun _ _ => (Act.gives_any _).bind fun _ _ =>
      (Act.gives_any _).bind fun _ _ =>
        (Act.gives_lift fun _ => Engine.plan_for).bind fun plan hplan => Act.gives_pure ?_
    intro other hsame
    cases hsame
    exact hplan
  | delegated name code => exact Fallback.begin_for s.fallback name code job token

section Publishing

theorem store_sends (sink : Sink) (h : Host) (record : OutputRecord) :
    Sends [] h (sink.store h record).1 := by
  have hwritten (tree : FileTree) : Sends [] h (h.withTree tree) :=
    ⟨rfl, rfl, rfl, rfl, (List.append_nil _).symm⟩
  unfold Sink.store
  split
  · exact .refl h
  · split
    · exact .refl h
    · dsimp only
      split
      · exact hwritten _
      · split
        · exact (hwritten _).trans (note_touches ..).toSends
        · exact hwritten _

theorem noteFailures_sends (sink : Sink) (h : Host) (record : OutputRecord) :
    Sends [] h (sink.noteFailures h record) := by
  unfold Sink.noteFailures
  generalize sink.listeners.filter (·.failing) = failing
  induction failing generalizing h with
  | nil => exact .refl h
  | cons l rest ih => exact (note_touches ..).toSends.trans (ih _)

theorem publish_sends (s : Server) (result : JobResult) :
    Sends [] s.host (s.publish result).1.host := by
  show Sends [] s.host (s.sink.publish s.host result).2.1
  unfold Sink.publish
  have hstored := store_sends (s.sink.enter result s.host.now).1 s.host
    (s.sink.enter result s.host.now).2
  dsimp only
  split
  · next hfailed =>
    rw [hfailed] at hstored
    exact hstored
  · next hdone =>
    rw [hdone] at hstored
    exact hstored.trans (noteFailures_sends ..)

theorem release_host (s : Server) (k : Nat) : (s.release k).host = s.host := by
  unfold release
  split <;> rfl

structure Published (s : Server) (k : Nat) (job : Job) (s' : Server) : Prop where
  sends : Sends [] s.host s'.host
  workers : s'.workers = s.workers.set k (.closing job) ∨
    s'.workers = s.workers.set k (.failing job)

theorem publish_eq {result : JobResult} {published : Except Failure OutputRecord}
    (h : (s.release k).publish result = (mid, published)) :
    Sends [] s.host mid.host ∧ mid.workers = s.workers := by
  have hsends := publish_sends (s.release k) result
  rw [release_host, h] at hsends
  cases h
  exact ⟨hsends, (quiet_release s k).workers⟩

theorem conclude_published (s : Server) (k : Nat) (job : Job) (result : JobResult) :
    Published s k job (s.conclude k job result) := by
  unfold conclude
  split
  · next hdone =>
    obtain ⟨hsends, hworkers⟩ := publish_eq hdone
    exact ⟨hsends, .inl (by rw [← hworkers]; rfl)⟩
  · next hfailed =>
    obtain ⟨hsends, hworkers⟩ := publish_eq hfailed
    exact ⟨hsends, .inr (by rw [← hworkers]; rfl)⟩

theorem Published.of_note {level : LogLevel} {text : String}
    (h : Published (s.note level text) k job s') : Published s k job s' :=
  ⟨(note_touches ..).toSends.trans h.sends, h.workers⟩

theorem concludeFailure_published (s : Server) (k : Nat) (job : Job) (f : Failure) :
    Published s k job (s.concludeFailure k job f) := by
  unfold concludeFailure
  dsimp only
  split
  · exact (conclude_published ..).of_note
  · exact (conclude_published ..).of_note

theorem concludeRun_published (s : Server) (k : Nat) (job : Job) (report : RunReport) :
    Published s k job (s.concludeRun k job report) :=
  (conclude_published ..).of_note

theorem concludeClean_published (s : Server) (k : Nat) (job : Job) :
    Published s k job (s.concludeClean k job) := by
  unfold concludeClean
  split
  · next hdone =>
    obtain ⟨hsends, hworkers⟩ := publish_eq hdone
    exact ⟨hsends, .inl (by rw [← hworkers]; rfl)⟩
  · next mid failure hfailed =>
    obtain ⟨hsends, hworkers⟩ := publish_eq hfailed
    have hfailure := concludeFailure_published mid k job failure
    exact ⟨hsends.trans hfailure.sends, hworkers ▸ hfailure.workers⟩

/-- A turn goes on with the job or publishes what came of it. -/
theorem Turn.cases (h : Turn s k job s') :
    (∃ activity, s' = s.setWorker k (.working job activity)) ∨ Published s k job s' := by
  cases h with
  | proceeded activity => exact .inl ⟨activity, rfl⟩
  | failed failure => exact .inr (concludeFailure_published ..)
  | ran report => exact .inr (concludeRun_published ..)
  | cleaned => exact .inr (concludeClean_published ..)

theorem Turn.sends (h : Turn s k job s') : Sends [] s.host s'.host := by
  rcases h.cases with ⟨activity, rfl⟩ | hpublished
  · exact .refl _
  · exact hpublished.sends

end Publishing

section Moments

variable {activity next : Activity}

def stage : Activity → Nat
  | .starting => 0
  | .resolved _ => 1
  | .running .. => 2
  | .settling _ => 2

structure Unbegun (job : Job) (chain : Chain) : Prop where
  idle : chain.running = none
  plan : chain.plan.For job.id job.token

/-- What a moment of work comes to: its requests are sent and its files are added, and then the
worker goes further with the job or publishes what came of it. A chain that it goes on with was
not begun. -/
structure Effects (s : Server) (k : Nat) (job : Job) (activity : Activity) (s' : Server) :
    Prop where
  work : ∃ mid, mid.workers = s.workers ∧
    Touches (s.requested activity) (s.host.withTree (s.wiped job activity)) mid.host ∧
    Turn mid k job s'
  unbegun : ∀ language level chain,
    s'.workers[k]? = some (.working job (.running language level chain)) → Unbegun job chain
  advances : ∀ next, s'.workers[k]? = some (.working job next) → stage activity < stage next

theorem Published.not_working {other : Job} (h : Published s k job s') :
    s'.workers[k]? ≠ some (.working other activity) := by
  rcases h.workers with hworkers | hworkers <;>
  · rw [hworkers, List.getElem?_set_self']
    cases s.workers[k]? <;> simp

theorem working_of_setWorker {other : Job}
    (hworking : (s.setWorker k (.working job next)).workers[k]? = some (.working other activity)) :
    other = job ∧ activity = next := by
  have hset : (s.workers.set k (.working job next))[k]? = some (.working other activity) :=
    hworking
  rw [List.getElem?_set_self'] at hset
  cases hold : s.workers[k]? with
  | none => simp [hold] at hset
  | some old =>
    rw [hold] at hset
    cases hset
    exact ⟨rfl, rfl⟩

theorem Effects.of_published (hpublished : Published mid k job s') (hturn : Turn mid k job s')
    (htouches : Touches (s.requested activity) (s.host.withTree (s.wiped job activity)) mid.host)
    (hworkers : mid.workers = s.workers) : Effects s k job activity s' :=
  ⟨⟨mid, hworkers, htouches, hturn⟩, fun _ _ _ h => absurd h hpublished.not_working,
    fun _ h => absurd h hpublished.not_working⟩

theorem Effects.of_proceeded
    (htouches : Touches (s.requested activity) (s.host.withTree (s.wiped job activity)) mid.host)
    (hworkers : mid.workers = s.workers) (hstage : stage activity < stage next)
    (hfresh : ∀ language level chain, next = .running language level chain → Unbegun job chain) :
    Effects s k job activity (mid.setWorker k (.working job next)) := by
  refine ⟨⟨mid, hworkers, htouches, .proceeded next⟩, fun language level chain h => ?_,
    fun other h => ?_⟩
  · exact hfresh language level chain (working_of_setWorker h).2.symm
  · exact (working_of_setWorker h).2 ▸ hstage

theorem wiped_starting (hclean : job.kind = .clean) :
    s.wiped job .starting = (outcome s.workspace.clean s.host.machine.tree).2 := by
  simp only [wiped, hclean]

theorem wiped_run {request : Option RunRequest} (hrun : job.kind = .run request) :
    s.wiped job activity = s.host.machine.tree := by
  unfold wiped
  split
  · next hclean => simp [hrun] at hclean
  · rfl

theorem act_result {α : Type} (s : Server) (x : Act α) :
    s.act x = ({ s with host := (result x s.host).2 }, (result x s.host).1) := rfl

theorem beginClean_effects (hclean : job.kind = .clean) :
    Effects s k job .starting (s.beginClean k job) := by
  have htouches : Touches (s.requested .starting) (s.host.withTree (s.wiped job .starting))
      (s.host.withTree (outcome s.workspace.clean s.host.machine.tree).2) := by
    rw [wiped_starting hclean]
    exact .refl _
  unfold beginClean
  rw [act_files]
  cases (outcome s.workspace.clean s.host.machine.tree).1 with
  | error failure =>
    dsimp only
    exact .of_published (concludeFailure_published ..) (.failed failure) htouches rfl
  | ok _ =>
    exact .of_proceeded (htouches.trans (note_touches ..)) rfl Nat.two_pos
      fun _ _ _ h => by cases h

theorem beginRun_effects {request : Option RunRequest} (hrun : job.kind = .run request) :
    Effects s k job .starting (s.beginRun k job request) := by
  have hwiped : s.host.withTree (s.wiped job .starting) = s.host := by
    rw [wiped_run hrun]
    rfl
  unfold beginRun
  cases request with
  | none =>
    refine .of_published (concludeFailure_published ..) (.failed _) ?_ rfl
    rw [hwiped]
    exact .refl _
  | some request =>
    have htouches : Touches (s.requested .starting) (s.host.withTree (s.wiped job .starting))
        (result (s.resolveRequest request job.id) s.host).2 := by
      rw [hwiped]
      exact (resolveRequest_gentle s request job.id).touches s.host
    dsimp only
    rw [act_result]
    cases (result (s.resolveRequest request job.id) s.host).1 with
    | error failure =>
      dsimp only
      exact .of_published (concludeFailure_published ..) (.failed failure) htouches rfl
    | ok r => exact .of_proceeded htouches rfl Nat.one_pos fun _ _ _ h => by cases h

theorem beginFiles_effects (s : Server) (k : Nat) (job : Job) (r : Resolved) :
    Effects s k job (.resolved r) (s.beginFiles k job r) := by
  have htouches : Touches (s.requested (.resolved r))
      (s.host.withTree (s.wiped job (.resolved r)))
      (result (startResolved { s with holder := some k } r job.id job.token) s.host).2 :=
    startResolved_touches { s with holder := some k } r job.id job.token
  unfold beginFiles
  dsimp only
  rw [act_result]
  cases hresult : (result (startResolved { s with holder := some k } r job.id job.token)
      s.host).1 with
  | error failure =>
    dsimp only
    exact .of_published (concludeFailure_published ..) (.failed failure) htouches rfl
  | ok started =>
    cases started with
    | finished o =>
      dsimp only
      exact .of_published (concludeRun_published ..) (.ran _) htouches rfl
    | chain plan =>
      refine .of_proceeded htouches rfl Nat.one_lt_two fun language level chain h => ?_
      cases h
      exact ⟨rfl, (startResolved_for ..).gives _ _ _ (Prod.ext hresult rfl) plan rfl⟩

/-- A moment of work that makes no move of a chain. -/
theorem stepActivity_cases (hmove : s.stepActivity k job activity = .moved s') :
    Effects s k job activity s' ∨ ∃ language level chain,
      activity = .running language level chain ∧
        s.stepChain k job language level chain = .moved s' := by
  unfold stepActivity at hmove
  dsimp only at hmove
  cases activity with
  | starting =>
    cases hkind : job.kind with
    | clean =>
      simp only [hkind] at hmove
      split at hmove
      · cases hmove
        exact .inl (beginClean_effects hkind)
      · cases hmove
    | run request =>
      simp only [hkind] at hmove
      cases hmove
      exact .inl (beginRun_effects hkind)
  | resolved r =>
    dsimp only at hmove
    split at hmove
    · cases hmove
      exact .inl (beginFiles_effects s k job r)
    · cases hmove
  | running language level chain => exact .inr ⟨language, level, chain, rfl, hmove⟩
  | settling until_ =>
    dsimp only at hmove
    split at hmove
    · cases hmove
      exact .inl (.of_published (concludeClean_published ..) .cleaned (.refl _) rfl)
    · cases hmove

/-- A chain whose token is cancelled before a step makes no step. -/
theorem step_unwanted {chain : Chain} {h : Host} (hidle : chain.running = none)
    (hcancelled : h.isCancelled chain.plan.token = true) : ∃ o, chain.step h = .done h o := by
  unfold Chain.step
  rw [hidle]
  cases chain.left with
  | nil => exact ⟨_, rfl⟩
  | cons argv rest => exact ⟨_, if_pos hcancelled⟩

/-- So a moment of work on a job that is to stop and of which nothing was run makes none. -/
theorem stepActivity_effects (hmove : s.stepActivity k job activity = .moved s')
    (hcancelled : s.host.isCancelled job.token = true)
    (hunbegun : ∀ language level chain, activity = .running language level chain →
      Unbegun job chain) : Effects s k job activity s' := by
  rcases stepActivity_cases hmove with heffects | ⟨language, level, chain, rfl, hchain⟩
  · exact heffects
  · obtain ⟨hidle, hplan⟩ := hunbegun language level chain rfl
    obtain ⟨o, hdone⟩ := step_unwanted hidle (hplan.token ▸ hcancelled)
    unfold stepChain at hchain
    rw [hdone] at hchain
    cases hchain
    exact .of_published (concludeRun_published ..) (.ran _) (.refl _) rfl

end Moments

section Moves

variable {activity : Activity} {other : Job} {chain : Chain}

def Works (s : Server) (k : Nat) (job : Job) (chain : Chain) : Prop :=
  ∃ language level, s.workers[k]? = some (.working job (.running language level chain))

theorem Works.of_workers (hworks : Works s' k job chain)
    (h : s'.workers = s.workers) : Works s k job chain := by
  unfold Works at hworks ⊢
  rwa [← h]

/-- A chain that a worker has in hand after its move was moved just now, or is another one of
which nothing was run. -/
structure Follows (s : Server) (k : Nat) (s' : Server) : Prop where
  cancelled : s'.host.cancelled = s.host.cancelled
  chain : ∀ other chain, Works s' k other chain → Unbegun other chain ∨
    ∃ before, Works s k other before ∧ before.step s.host = .moved s'.host chain

theorem Effects.follows (h : Effects s k job activity s') : Follows s k s' := by
  obtain ⟨mid, hworkers, htouches, hturn⟩ := h.work
  refine ⟨hturn.sends.cancelled.trans htouches.cancelled, fun other chain hworks => ?_⟩
  obtain ⟨language, level, hnow⟩ := hworks
  rcases hturn.cases with ⟨next, rfl⟩ | hpublished
  · obtain ⟨rfl, -⟩ := working_of_setWorker hnow
    exact .inl (h.unbegun language level chain hnow)
  · exact absurd hnow hpublished.not_working

/-- The worker goes on with a chain that has moved, or the chain is over and with it the job. -/
theorem stepChain_cases {language : String} {level : Level}
    (hmove : s.stepChain k job language level chain = .moved s') :
    (∃ host next, chain.step s.host = .moved host next ∧
      s' = { s with host }.setWorker k (.working job (.running language level next))) ∨
    Published { s with host := (chain.step s.host).host } k job s' := by
  unfold stepChain at hmove
  cases hstep : chain.step s.host <;> simp only [hstep, Move.moved.injEq] at hmove
  case moved host next => exact .inl ⟨host, next, rfl, hmove.symm⟩
  case waiting => cases hmove
  case done host o => exact .inr (hmove ▸ concludeRun_published ..)
  case failed host f => exact .inr (hmove ▸ concludeFailure_published ..)

theorem stepChain_follows {language : String} {level : Level}
    (hworker : s.workers[k]? = some (.working job (.running language level chain)))
    (hmove : s.stepChain k job language level chain = .moved s') : Follows s k s' := by
  have hcancelled := chain.step_cancelled s.host
  rcases stepChain_cases hmove with ⟨host, next, hstep, rfl⟩ | hpublished
  · rw [hstep] at hcancelled
    refine ⟨hcancelled, fun other after ⟨_, _, hnow⟩ => ?_⟩
    obtain ⟨rfl, hsame⟩ := working_of_setWorker hnow
    cases hsame
    exact .inr ⟨chain, ⟨language, level, hworker⟩, hstep⟩
  · exact ⟨hpublished.sends.cancelled.trans hcancelled,
      fun _ _ ⟨_, _, hnow⟩ => absurd hnow hpublished.not_working⟩

theorem follows_setWorker (s : Server) (k : Nat) (board : Board) {state : WorkerState}
    (hstate : ∀ job language level chain,
      state ≠ .working job (.running language level chain)) :
    Follows s k ({ s with board := board }.setWorker k state) := by
  refine ⟨rfl, fun other chain ⟨language, level, hnow⟩ => ?_⟩
  have hset : (s.workers.set k state)[k]? =
    some (.working other (.running language level chain)) := hnow
  rw [List.getElem?_set_self'] at hset
  cases hold : s.workers[k]? with
  | none => simp [hold] at hset
  | some old =>
    rw [hold] at hset
    have hsame : state = .working other (.running language level chain) := Option.some.inj hset
    exact (hstate _ _ _ _ hsame).elim

theorem stepWorker_follows (hmove : s.stepWorker k = .moved s') : Follows s k s' := by
  obtain ⟨state, hstate, hcases⟩ := stepWorker_cases hmove
  cases hcases with
  | takes item rest hqueue =>
    exact follows_setWorker s k { s.board with queue := rest } (by cases item <;> simp)
  | begins job => exact follows_setWorker s k (s.board.begin_ job) (by simp)
  | works job activity s' hactivity =>
    rcases stepActivity_cases hactivity with heffects | ⟨language, level, chain, rfl, hchain⟩
    · exact heffects.follows
    · exact stepChain_follows hstate hchain
  | closes job => exact follows_setWorker s k (s.board.finish job) (by simp)
  | fails job => exact follows_setWorker s k (s.board.finish job) (by simp)

end Moves

end SnippetRunner.Server
