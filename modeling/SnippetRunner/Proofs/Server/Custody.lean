import SnippetRunner.Proofs.Execution.Tracking
import SnippetRunner.Proofs.Server.Cancellation
import SnippetRunner.Proofs.Server.Restarts

/-!
What a move of a worker does to jobs and children. It hands jobs on, from the queue to the worker,
and makes no new ones and no tokens; and the tracker changes as the chain of the job at hand
changes it.
-/
namespace SnippetRunner.Server

variable {s s' mid : Server} {k : Nat} {job : Job}

structure Filed (s s' : Server) : Prop where
  board : s'.board = s.board
  nextToken : s'.nextToken = s.nextToken

theorem Filed.refl (s : Server) : Filed s s := ⟨rfl, rfl⟩

theorem Filed.trans (h : Filed s mid) (h' : Filed mid s') : Filed s s' :=
  ⟨h'.board.trans h.board, h'.nextToken.trans h.nextToken⟩

theorem filed_host (s : Server) (host : Host) : Filed s { s with host } := ⟨rfl, rfl⟩

theorem filed_note (s : Server) (level : LogLevel) (text : String) :
    Filed s (s.note level text) := filed_host ..

theorem act_filed {α : Type} {a : Act α} {made : Except Failure α} (h : s.act a = (mid, made)) :
    Filed s mid := by
  rw [act_result] at h
  obtain ⟨rfl, -⟩ := Prod.mk.inj h
  exact ⟨rfl, rfl⟩

section Concluding

theorem filed_release (s : Server) (k : Nat) : Filed s (s.release k) := by
  unfold release
  split <;> exact ⟨rfl, rfl⟩

theorem publish_filed {result : JobResult} {published : Except Failure OutputRecord}
    (h : (s.release k).publish result = (mid, published)) : Filed s mid := by
  cases h
  exact (filed_release s k).trans ⟨rfl, rfl⟩

theorem conclude_filed (s : Server) (k : Nat) (job : Job) (result : JobResult) :
    Filed s (s.conclude k job result) := by
  unfold conclude
  split
  all_goals
    next heq => exact (publish_filed heq).trans ⟨rfl, rfl⟩

theorem concludeFailure_filed (s : Server) (k : Nat) (job : Job) (f : Failure) :
    Filed s (s.concludeFailure k job f) := by
  unfold concludeFailure
  dsimp only
  split
  · exact (filed_note ..).trans (conclude_filed ..)
  · exact (filed_note ..).trans (conclude_filed ..)

theorem concludeRun_filed (s : Server) (k : Nat) (job : Job) (report : RunReport) :
    Filed s (s.concludeRun k job report) :=
  (filed_note ..).trans (conclude_filed ..)

theorem concludeClean_filed (s : Server) (k : Nat) (job : Job) :
    Filed s (s.concludeClean k job) := by
  unfold concludeClean
  split
  · next heq => exact (publish_filed heq).trans ⟨rfl, rfl⟩
  · next heq => exact (publish_filed heq).trans (concludeFailure_filed ..)

end Concluding

section Working

theorem beginClean_filed (s : Server) (k : Nat) (job : Job) : Filed s (s.beginClean k job) := by
  unfold beginClean
  split
  · next heq => exact (act_filed heq).trans (concludeFailure_filed ..)
  · next heq => exact (act_filed heq).trans ⟨rfl, rfl⟩

theorem beginRun_filed (s : Server) (k : Nat) (job : Job) (request : Option RunRequest) :
    Filed s (s.beginRun k job request) := by
  unfold beginRun
  cases request with
  | none => exact concludeFailure_filed ..
  | some request =>
    dsimp only
    split
    · next heq => exact (act_filed heq).trans (concludeFailure_filed ..)
    · next heq => exact (act_filed heq).trans ⟨rfl, rfl⟩

theorem beginFiles_filed (s : Server) (k : Nat) (job : Job) (r : Resolved) :
    Filed s (s.beginFiles k job r) := by
  have hheld : Filed s { s with holder := some k } := ⟨rfl, rfl⟩
  unfold beginFiles
  dsimp only
  split
  · next heq => exact hheld.trans ((act_filed heq).trans (concludeFailure_filed ..))
  · next heq => exact hheld.trans ((act_filed heq).trans (concludeRun_filed ..))
  · next heq => exact hheld.trans ((act_filed heq).trans ⟨rfl, rfl⟩)

theorem stepChain_filed {language : String} {level : Level} {chain : Chain}
    (hmove : s.stepChain k job language level chain = .moved s') : Filed s s' := by
  unfold stepChain at hmove
  split at hmove
  · cases hmove
    exact ⟨rfl, rfl⟩
  · cases hmove
  · next host _ _ =>
    cases hmove
    exact (filed_host s host).trans (concludeRun_filed ..)
  · next host _ _ =>
    cases hmove
    exact (filed_host s host).trans (concludeFailure_filed ..)

theorem stepActivity_filed {activity : Activity}
    (hmove : s.stepActivity k job activity = .moved s') : Filed s s' := by
  unfold stepActivity at hmove
  dsimp only at hmove
  cases activity with
  | starting =>
    cases hkind : job.kind with
    | clean =>
      simp only [hkind] at hmove
      split at hmove
      · cases hmove
        exact beginClean_filed ..
      · cases hmove
    | run request =>
      simp only [hkind] at hmove
      cases hmove
      exact beginRun_filed ..
  | resolved r =>
    dsimp only at hmove
    split at hmove
    · cases hmove
      exact beginFiles_filed ..
    · cases hmove
  | running language level chain => exact stepChain_filed hmove
  | settling until_ =>
    dsimp only at hmove
    split at hmove
    · cases hmove
      exact concludeClean_filed ..
    · cases hmove

end Working

/-- The jobs that a server knows of: pending, in the queue, or in the hand of a worker. -/
def known (s : Server) : List Job :=
  s.board.pending.map (·.2) ++ jobs s.board.queue ++ s.workers.flatMap inHand

structure HandsOn (s : Server) (s' : Server) : Prop where
  nextToken : s'.nextToken = s.nextToken
  pending : s'.board.pending ⊆ s.board.pending
  known : s'.known ⊆ s.known

theorem mem_jobs {items : List (Option Job)} : job ∈ jobs items ↔ some job ∈ items := by
  simp [jobs]

/-- One worker changes, and what it holds then it held before or is in the queue. -/
theorem handsOn_of_set {state next : WorkerState} (hstate : s.workers[k]? = some state)
    (hnextToken : s'.nextToken = s.nextToken) (hpending : s'.board.pending ⊆ s.board.pending)
    (hqueue : s'.board.queue ⊆ s.board.queue) (hworkers : s'.workers = s.workers.set k next)
    (hhand : ∀ job ∈ inHand next, job ∈ inHand state ∨ some job ∈ s.board.queue) :
    HandsOn s s' := by
  refine ⟨hnextToken, hpending, fun job hjob => ?_⟩
  simp only [known, List.mem_append, List.mem_map, List.mem_flatMap, mem_jobs] at hjob ⊢
  rcases hjob with (⟨p, hp, rfl⟩ | hqueued) | ⟨other, hother, hmem⟩
  · exact .inl (.inl ⟨p, hpending hp, rfl⟩)
  · exact .inl (.inr (hqueue hqueued))
  · rcases List.mem_or_eq_of_mem_set (hworkers ▸ hother) with hold | rfl
    · exact .inr ⟨other, hold, hmem⟩
    · rcases hhand job hmem with hheld | hqueued
      · exact .inr ⟨state, List.mem_of_getElem? hstate, hheld⟩
      · exact .inl (.inr hqueued)

/-- A moment of work leaves its job in the hand of its worker. -/
theorem Turn.hand (h : Turn mid k job s') :
    ∃ next, s'.workers = mid.workers.set k next ∧ inHand next = [job] := by
  rcases h.cases with ⟨activity, rfl⟩ | hpublished
  · exact ⟨_, rfl, rfl⟩
  · rcases hpublished.workers with hworkers | hworkers
    · exact ⟨_, hworkers, rfl⟩
    · exact ⟨_, hworkers, rfl⟩

theorem stepWorker_handsOn (hmove : s.stepWorker k = .moved s') : HandsOn s s' := by
  obtain ⟨state, hstate, hcases⟩ := stepWorker_cases hmove
  cases hcases with
  | takes item rest hqueue =>
    have hrest : rest ⊆ s.board.queue := hqueue ▸ List.subset_cons_self ..
    refine handsOn_of_set hstate rfl (List.Subset.refl _) hrest rfl fun other h => .inr ?_
    cases item with
    | none => cases h
    | some job =>
      rw [List.mem_singleton.mp h, hqueue]
      exact List.mem_cons_self ..
  | begins job =>
    exact handsOn_of_set hstate rfl (List.Subset.refl _) (List.Subset.refl _) rfl fun _ => .inl
  | works job activity s' hactivity =>
    obtain ⟨mid, hmid, hturn⟩ := stepActivity_turn hactivity
    obtain ⟨next, hworkers, hhand⟩ := hturn.hand
    have hfiled := stepActivity_filed hactivity
    refine handsOn_of_set hstate hfiled.nextToken ?_ ?_ (hmid.workers ▸ hworkers) fun _ h => ?_
    · rw [hfiled.board]
      exact List.Subset.refl _
    · rw [hfiled.board]
      exact List.Subset.refl _
    · rw [hhand] at h
      exact .inl h
  | _ =>
    exact handsOn_of_set hstate rfl List.filter_sublist.subset (List.Subset.refl _) rfl
      fun _ h => by cases h

section Children

def change? (s : Server) (k : Nat) : Option Tracker.Change :=
  match s.workers[k]? with
  | some (.working _ (.running _ _ chain)) => chain.change? s.host
  | _ => none

theorem change?_running {language : String} {level : Level} {chain : Chain}
    (hworker : s.workers[k]? = some (.working job (.running language level chain))) :
    s.change? k = chain.change? s.host := by
  simp only [change?, hworker]

theorem stepChain_tracker {language : String} {level : Level} {chain : Chain}
    (hmove : s.stepChain k job language level chain = .moved s') :
    s'.host.tracker = s.host.tracker.after (chain.change? s.host) := by
  have htracker := chain.step_tracker s.host
  rcases stepChain_cases hmove with ⟨host, next, hstep, rfl⟩ | hpublished
  · rw [hstep] at htracker
    exact htracker
  · exact hpublished.sends.tracker.trans htracker

theorem stepWorker_tracker (hmove : s.stepWorker k = .moved s') :
    s'.host.tracker = s.host.tracker.after (s.change? k) := by
  obtain ⟨state, hstate, hcases⟩ := stepWorker_cases hmove
  cases hcases with
  | works job activity s' hactivity =>
    cases activity with
    | running language level chain =>
      rw [change?_running hstate]
      exact stepChain_tracker hactivity
    | _ =>
      rcases stepActivity_cases hactivity with heffects | ⟨_, _, _, hrunning, -⟩
      · obtain ⟨mid, -, htouches, hturn⟩ := heffects.work
        simp only [change?, hstate]
        exact hturn.sends.tracker.trans htouches.tracker
      · cases hrunning
  | _ =>
    simp only [change?, hstate]
    rfl

end Children

end SnippetRunner.Server
