import SnippetRunner.Proofs.Execution.Winding
import SnippetRunner.Proofs.Server.Custody
import SnippetRunner.Proofs.Server.Serving

/-!
How a server with one worker comes to a stop. As long as the worker lives, the child of its chain
is on the tracker and leads a group, so that the child has ended when everything on the tracker is
killed. From then on each move brings the worker nearer to the request to stop: no step that
its chains begin gets beyond its first child, and nothing but the time that a cleaning takes is
waited for.
-/
namespace SnippetRunner.Server

open Machine

variable {s s' mid : Server} {k : Nat} {job : Job} {chain : Chain} {P : Nat × Nat → Prop}

section Moving

theorem stepChain_onward {language : String} {level : Level}
    (hmove : s.stepChain k job language level chain = .moved s') :
    Onward P s.host.machine s'.host.machine := by
  have honward := chain.step_onward (P := P) s.host
  rcases stepChain_cases hmove with ⟨host, next, hstep, rfl⟩ | hpublished
  · rwa [hstep] at honward
  · exact honward.trans hpublished.sends.onward

theorem stepWorker_onward (hmove : s.stepWorker k = .moved s') :
    Onward P s.host.machine s'.host.machine := by
  obtain ⟨state, hstate, hcases⟩ := stepWorker_cases hmove
  cases hcases with
  | works job activity s' hactivity =>
    rcases stepActivity_cases hactivity with heffects | ⟨language, level, chain, rfl, hchain⟩
    · obtain ⟨mid, -, htouches, hturn⟩ := heffects.work
      have hwiped : Onward P s.host.machine
          (s.host.withTree (s.wiped job activity)).machine :=
        onward_of_children rfl (Nat.le_refl _)
      exact hwiped.trans (htouches.toSends.onward.trans hturn.sends.onward)
    · exact stepChain_onward hchain
  | _ => exact .refl _

/-- The work directory is left to whom it belongs, or it is given back. -/
def GivesBack (s s' : Server) : Prop := s'.holder = s.holder ∨ s'.holder = none

theorem GivesBack.trans (h : GivesBack s mid) (h' : GivesBack mid s') : GivesBack s s' := by
  rcases h' with hsame | hnone
  · rcases h with h | h
    · exact .inl (hsame.trans h)
    · exact .inr (hsame.trans h)
  · exact .inr hnone

theorem release_givesBack (s : Server) (k : Nat) : GivesBack s (s.release k) := by
  unfold release
  split
  · exact .inr rfl
  · exact .inl rfl

theorem publish_givesBack {result : JobResult} {published : Except Failure OutputRecord}
    (h : (s.release k).publish result = (mid, published)) : GivesBack s mid := by
  cases h
  exact release_givesBack s k

theorem conclude_givesBack (s : Server) (k : Nat) (job : Job) (result : JobResult) :
    GivesBack s (s.conclude k job result) := by
  unfold conclude
  split
  all_goals
    next hpublished => exact (publish_givesBack hpublished).trans (.inl rfl)

theorem concludeFailure_givesBack (s : Server) (k : Nat) (job : Job) (f : Failure) :
    GivesBack s (s.concludeFailure k job f) := by
  unfold concludeFailure
  dsimp only
  split
  all_goals exact conclude_givesBack ..

theorem Turn.givesBack (h : Turn s k job s') : GivesBack s s' := by
  cases h with
  | proceeded activity => exact .inl rfl
  | failed failure => exact concludeFailure_givesBack ..
  | ran report => exact conclude_givesBack ..
  | cleaned =>
    unfold concludeClean
    split
    · next hpublished => exact (publish_givesBack hpublished).trans (.inl rfl)
    · next hpublished =>
      exact (publish_givesBack hpublished).trans (concludeFailure_givesBack ..)

/-- A worker takes the work directory for itself or leaves it alone, and may give it back. -/
theorem stepWorker_holder (hmove : s.stepWorker k = .moved s') :
    GivesBack s s' ∨ s'.holder = some k := by
  obtain ⟨state, hstate, hcases⟩ := stepWorker_cases hmove
  cases hcases with
  | works job activity s' hactivity =>
    obtain ⟨mid, hmid, hturn⟩ := stepActivity_turn hactivity
    rcases hmid.holder with hsame | hheld
    · exact .inl (GivesBack.trans (.inl hsame) hturn.givesBack)
    · rcases hturn.givesBack with hkept | hfree
      · exact .inr (hkept.trans hheld)
      · exact .inl (.inr hfree)
  | _ => exact .inl (.inl rfl)

end Moving

structure Spares (s s' : Server) : Prop where
  workers : s'.workers = s.workers
  active : s'.active = s.active
  holder : s'.holder = s.holder
  tracker : s'.host.tracker.jobs = s.host.tracker.jobs
  machine : ∀ P, s.host.machine.Placed P → Onward P s.host.machine s'.host.machine

theorem Spares.trans (h : Spares s mid) (h' : Spares mid s') : Spares s s' where
  workers := h'.workers.trans h.workers
  active := h'.active.trans h.active
  holder := h'.holder.trans h.holder
  tracker := h'.tracker.trans h.tracker
  machine P hplaced :=
    (h.machine P hplaced).trans (h'.machine P ((h.machine P hplaced).placed hplaced))

theorem spares_pass (s : Server) (children : List Nat) (limit : Nat) :
    Spares s { s with host := s.host.pass children limit } :=
  ⟨rfl, rfl, rfl, rfl, fun _ hplaced => runUntil_onward _ hplaced children limit⟩

theorem cancelTokens_eq (tokens : List Nat) (h : Host) :
    ∃ cancelled, tokens.foldl Host.cancel h = { h with cancelled } := by
  induction tokens generalizing h with
  | nil => exact ⟨h.cancelled, rfl⟩
  | cons token rest ih =>
    obtain ⟨cancelled, heq⟩ := ih (h.cancel token)
    refine ⟨cancelled, heq.trans ?_⟩
    unfold Host.cancel
    split <;> rfl

theorem cancelAll_host (s : Server) (close : Bool) : ∃ h : Host, h.machine = s.host.machine ∧
    h.tracker = (if close then s.host.tracker.close else s.host.tracker) ∧
      (s.cancelAll close).1.host = h.killAll.1 := by
  obtain ⟨cancelled, heq⟩ := cancelTokens_eq s.board.tokens s.host
  unfold cancelAll
  rw [heq]
  cases close with
  | false => exact ⟨{ s.host with cancelled }, rfl, rfl, rfl⟩
  | true => exact ⟨{ s.host with cancelled, tracker := s.host.tracker.close }, rfl, rfl, rfl⟩

theorem cancelAll_closes (s : Server) : (s.cancelAll true).1.host.tracker.closed = true := by
  obtain ⟨h, -, htracker, hkilled⟩ := cancelAll_host s true
  rw [hkilled, Host.killAll_eq, Host.killEach_tracker, htracker]
  rfl

theorem spares_cancelAll (s : Server) (close : Bool) : Spares s (s.cancelAll close).1 := by
  obtain ⟨h, hmachine, htracker, hkilled⟩ := cancelAll_host s close
  refine ⟨rfl, rfl, rfl, ?_, fun P _ => ?_⟩
  · rw [hkilled, Host.killAll_eq, Host.killEach_tracker, htracker]
    split <;> rfl
  · rw [hkilled, ← hmachine]
    exact Host.killEach_onward ..

/-- A server has one worker, for which callers wait. The work directory is free for it, and the
children have numbers that were given. -/
structure Staffed (s : Server) : Prop where
  worker : s.workers.length = 1
  active : s.active = some 0
  holder : s.holder = none ∨ s.holder = some 0
  numbered : s.host.machine.Numbered

/-- Besides, the child of its chain can be found on the tracker. -/
structure Tended (s : Server) : Prop extends Staffed s where
  chain : ∀ job chain, Works s 0 job chain → chain.Tended s.host

/-- Besides, there is no child that lives, and none will. -/
structure Winding (s : Server) : Prop extends Staffed s where
  closed : s.host.tracker.closed = true
  chain : ∀ job chain, Works s 0 job chain → chain.Wound s.host

theorem Staffed.spared (hstaffed : s.Staffed) (h : Spares s s') : s'.Staffed where
  worker := h.workers ▸ hstaffed.worker
  active := h.active.trans hstaffed.active
  holder := h.holder.symm ▸ hstaffed.holder
  numbered := (h.machine _ (placed_any _)).numbered hstaffed.numbered

theorem Staffed.work (hstaffed : s.Staffed) (hmove : s.stepWorker 0 = .moved s') : s'.Staffed := by
  obtain ⟨⟨⟨next, hworkers⟩, hactive⟩, -⟩ := stepWorker_actsOn hmove
  refine ⟨?_, hactive.trans hstaffed.active, ?_, ?_⟩
  · rw [hworkers, List.length_set, hstaffed.worker]
  · rcases stepWorker_holder hmove with (hsame | hfree) | hheld
    · exact hsame ▸ hstaffed.holder
    · exact .inl hfree
    · exact .inr hheld
  · exact (stepWorker_onward (P := fun _ => True) hmove).numbered hstaffed.numbered

theorem Tended.spared (htended : s.Tended) (h : Spares s s') : s'.Tended := by
  refine ⟨htended.toStaffed.spared h, fun job chain hworks => ?_⟩
  exact (htended.chain job chain (hworks.of_workers h.workers)).onward h.tracker
    fun P hplaced => (h.machine P hplaced).placed hplaced

theorem Tended.work (htended : s.Tended) (hmove : s.stepWorker 0 = .moved s') : s'.Tended := by
  refine ⟨htended.toStaffed.work hmove, fun job chain hworks => ?_⟩
  rcases (stepWorker_follows hmove).chain job chain hworks with hfresh | ⟨before, hbefore, hstep⟩
  · intro r hr
    cases hfresh.idle.symm.trans hr
  · exact (htended.chain job before hbefore).step htended.numbered hstep

theorem Tended.proceeds (htended : s.Tended) (h : Proceeds s s') : s'.Tended := by
  cases h with
  | move k _ hmove =>
    obtain ⟨state, hstate, -⟩ := isAlive_iff.mp (stepWorker_actsOn hmove).2
    have hk : k < s.workers.length := (List.getElem?_eq_some_iff.mp hstate).1
    have hfirst : k = 0 := by
      rw [htended.worker] at hk
      omega
    exact htended.work (hfirst ▸ hmove)
  | pass children limit => exact htended.spared (spares_pass s children limit)

theorem Tended.workFor (htended : s.Tended) (fuel : Nat) (goal : Server → Bool)
    (limit : Option Nat) : Tended (Server.workFor fuel goal limit s) := by
  have hproceeds := workFor_proceeds fuel goal limit s
  generalize Server.workFor fuel goal limit s = last at hproceeds ⊢
  induction hproceeds with
  | refl => exact htended
  | tail _ hstep ih => exact ih.proceeds hstep

/-- When everything is cancelled and the tracker is closed, the chain of the worker comes to its
end. -/
theorem Tended.cancelAll (htended : s.Tended) : Winding (s.cancelAll true).1 := by
  have hspares := spares_cancelAll s true
  refine ⟨htended.toStaffed.spared hspares, cancelAll_closes s, fun job chain hworks => ?_⟩
  obtain ⟨h, hmachine, htracker, hkilled⟩ := cancelAll_host s true
  have hmarked : chain.Tended h := by
    refine (htended.chain job chain (hworks.of_workers hspares.workers)).onward ?_ fun _ => ?_
    · rw [htracker]
      rfl
    · exact hmachine ▸ id
  exact hkilled ▸ hmarked.killAll

section Ending

variable {activity : Activity}

/-- How many moves are left to a worker until it is ready for its next job; a cleaning whose time
has not come counts for one more. -/
def leftFor (h : Host) : WorkerState → Nat
  | .waiting => 0
  | .holding _ => 7
  | .working _ .starting => 6
  | .working _ (.resolved _) => 5
  | .working _ (.running _ _ chain) => chain.movesLeft h
  | .working _ (.settling until_) => if h.machine.clock < until_ then 3 else 2
  | .closing _ => 1
  | .failing _ => 1
  | .stopped => 0

def movesLeft (s : Server) : Nat :=
  (s.workers.map (leftFor s.host)).sum + 8 * s.board.queue.length

section Counting

variable (h : Host) (job : Job) (activity : Activity)

theorem two_le_movesLeft (chain : Chain) : 2 ≤ chain.movesLeft h := by
  unfold Chain.movesLeft
  split
  · omega
  · split <;> omega

theorem leftFor_settling (until_ : Nat) :
    leftFor h (.working job (.settling until_)) = if h.machine.clock < until_ then 3 else 2 := rfl

theorem two_le_leftFor : 2 ≤ leftFor h (.working job activity) := by
  cases activity with
  | running language level chain => exact two_le_movesLeft h chain
  | settling until_ =>
    rw [leftFor_settling]
    split <;> omega
  | _ => simp [leftFor]

theorem stage_le_two : stage activity ≤ 2 := by
  cases activity <;> simp [stage]

/-- A job that has come to some stage and of which nothing was run. -/
theorem leftFor_le (hidle : ∀ language level chain,
    activity = .running language level chain → chain.running = none) :
    leftFor h (.working job activity) + stage activity ≤ 6 := by
  cases activity with
  | running language level chain =>
    simp [leftFor, stage, Chain.movesLeft, hidle language level chain rfl]
  | settling until_ =>
    rw [leftFor_settling, stage]
    split <;> omega
  | _ => simp [leftFor, stage]

theorem leftFor_early (hearly : stage activity < 2) :
    leftFor h (.working job activity) + stage activity = 6 := by
  cases activity with
  | starting => rfl
  | resolved r => rfl
  | _ => simp [stage] at hearly

end Counting

theorem Published.fewer (hpublished : Published s k job s') (h : Host) (activity : Activity) :
    ∃ next, s'.workers = s.workers.set k next ∧
      leftFor s'.host next < leftFor h (.working job activity) := by
  have hleft := two_le_leftFor h job activity
  rcases hpublished.workers with hworkers | hworkers
  · exact ⟨_, hworkers, hleft⟩
  · exact ⟨_, hworkers, hleft⟩

/-- A moment of work that makes no move of a chain leaves fewer moves. -/
theorem Effects.fewer (heffects : Effects s k job activity s') (hlive : k < s.workers.length) :
    ∃ next, s'.workers = s.workers.set k next ∧
      leftFor s'.host next < leftFor s.host (.working job activity) := by
  obtain ⟨mid, hworkers, -, hturn⟩ := heffects.work
  rcases hturn.cases with ⟨next, rfl⟩ | hpublished
  · have hset : (mid.setWorker k (.working job next)).workers[k]? = some (.working job next) := by
      show (mid.workers.set k _)[k]? = _
      rw [List.getElem?_set_self (hworkers ▸ hlive)]
    refine ⟨.working job next, by rw [← hworkers]; rfl, ?_⟩
    have hstage := heffects.advances next hset
    have hlast := stage_le_two next
    have hbefore := leftFor_early s.host job activity (by omega)
    have hafter := leftFor_le (mid.setWorker k (.working job next)).host job next
      fun language level chain hrunning =>
        (heffects.unbegun language level chain (hrunning ▸ hset)).idle
    omega
  · obtain ⟨next, hnext, hfewer⟩ := hpublished.fewer s.host activity
    exact ⟨next, hworkers ▸ hnext, hfewer⟩

theorem stepChain_fewer {language : String} {level : Level} (hnum : s.host.machine.Numbered)
    (hclosed : s.host.tracker.closed = true) (hwound : chain.Wound s.host)
    (hmove : s.stepChain k job language level chain = .moved s') :
    ∃ next, s'.workers = s.workers.set k next ∧
      leftFor s'.host next < leftFor s.host (.working job (.running language level chain)) := by
  rcases stepChain_cases hmove with ⟨host, next, hstep, rfl⟩ | hpublished
  · exact ⟨_, rfl, (hwound.step hnum hclosed hstep).2⟩
  · exact hpublished.fewer s.host _

theorem Winding.work (hwinding : s.Winding) (hmove : s.stepWorker 0 = .moved s') : s'.Winding := by
  refine ⟨hwinding.toStaffed.work hmove, ?_, fun job chain hworks => ?_⟩
  · exact stepWorker_tracker hmove ▸ Tracker.closed_after _ hwinding.closed
  · rcases (stepWorker_follows hmove).chain job chain hworks with
      hfresh | ⟨before, hbefore, hstep⟩
    · intro r hr
      cases hfresh.idle.symm.trans hr
    · exact ((hwinding.chain job before hbefore).step hwinding.numbered hwinding.closed hstep).1

/-- Each move of the worker leaves fewer moves. -/
theorem Winding.fewer (hwinding : s.Winding) (hmove : s.stepWorker 0 = .moved s') :
    s'.movesLeft < s.movesLeft := by
  obtain ⟨state, hworkers⟩ := List.length_eq_one_iff.mp hwinding.worker
  have hstate : s.workers[0]? = some state := by rw [hworkers]; rfl
  have hset {next : WorkerState} (rest : List (Option Job))
      (hnext : s'.workers = s.workers.set 0 next) (hqueue : s'.board.queue = rest)
      (hfewer : leftFor s'.host next + 8 * rest.length <
        leftFor s.host state + 8 * s.board.queue.length) : s'.movesLeft < s.movesLeft := by
    simpa [movesLeft, hnext, hqueue, hworkers] using hfewer
  cases stepWorker_move hstate hmove with
  | takes item rest hqueue =>
    refine hset rest rfl rfl ?_
    have hready : leftFor s.host (item.elim .stopped .holding) ≤ 7 := by
      cases item <;> simp [leftFor]
    simp only [hqueue, List.length_cons]
    show leftFor s.host _ + _ < _
    omega
  | works job activity s' hactivity =>
    have hboard : s'.board.queue = s.board.queue :=
      congrArg Board.queue (stepActivity_filed hactivity).board
    obtain ⟨next, hnext, hfewer⟩ : ∃ next, s'.workers = s.workers.set 0 next ∧
        leftFor s'.host next < leftFor s.host (.working job activity) := by
      rcases stepActivity_cases hactivity with heffects | ⟨language, level, chain, rfl, hchain⟩
      · exact heffects.fewer (by rw [hwinding.worker]; exact Nat.one_pos)
      · exact stepChain_fewer hwinding.numbered hwinding.closed
          (hwinding.chain job chain ⟨language, level, hstate⟩) hchain
    exact hset _ hnext hboard (Nat.add_lt_add_right hfewer _)
  | _ => exact hset _ rfl rfl (Nat.add_lt_add_right (by simp [leftFor]) _)

/-- What a worker that cannot move waits for: its next job, or the end of a cleaning. -/
theorem Winding.blocked (hwinding : s.Winding) {wake : Option Nat} {children : List Nat}
    (hblocked : s.stepWorker 0 = .blocked wake children) (halive : s.isAlive 0 = true) :
    s.board.queue = [] ∨ ∃ job until_, s.workers = [.working job (.settling until_)] ∧
      s.host.machine.clock < until_ ∧ wake = some until_ ∧ children = [] := by
  obtain ⟨state, hworkers⟩ := List.length_eq_one_iff.mp hwinding.worker
  have hstate : s.workers[0]? = some state := by rw [hworkers]; rfl
  have hfree : (s.holder.isNone || s.holder == some 0) = true := by
    rcases hwinding.holder with h | h <;> simp [h]
  simp only [stepWorker, hstate] at hblocked
  cases state with
  | waiting =>
    left
    unfold Board.take? at hblocked
    cases hqueue : s.board.queue with
    | nil => rfl
    | cons item rest => cases item <;> simp [hqueue] at hblocked
  | working job activity =>
    unfold stepActivity at hblocked
    cases activity with
    | starting =>
      cases hkind : job.kind <;> simp [hkind, hfree] at hblocked
    | resolved r => simp [hfree] at hblocked
    | running language level chain =>
      have hwound := hwinding.chain job chain ⟨language, level, hstate⟩
      dsimp only at hblocked
      unfold stepChain at hblocked
      split at hblocked
      · cases hblocked
      · next hstep => exact absurd hstep hwound.not_waiting
      · cases hblocked
      · cases hblocked
    | settling until_ =>
      dsimp only at hblocked
      split at hblocked
      · cases hblocked
      · next hearly =>
        cases hblocked
        exact .inr ⟨job, until_, hworkers, by omega, rfl, rfl⟩
  | stopped => simp [isAlive, hstate] at halive
  | _ => cases hblocked

/-- A worker takes the head of the queue, after which it stops if that is the request to stop. -/
theorem stepWorker_queue (hmove : s.stepWorker k = .moved s') :
    s'.board.queue = s.board.queue ∨ ∃ item, s.board.queue = item :: s'.board.queue ∧
      (item = none → s'.isAlive k = false) := by
  obtain ⟨state, hstate, hcases⟩ := stepWorker_cases hmove
  cases hcases with
  | takes item rest hqueue =>
    have hk : k < s.workers.length := (List.getElem?_eq_some_iff.mp hstate).1
    refine .inr ⟨item, hqueue, ?_⟩
    rintro rfl
    simp [isAlive, setWorker, hk]
  | works job activity s' hactivity =>
    exact .inl (congrArg Board.queue (stepActivity_filed hactivity).board)
  | _ => exact .inl rfl

def Asked (s : Server) : Prop := s.isAlive 0 = true → none ∈ s.board.queue

theorem Asked.work (hasked : s.Asked) (hmove : s.stepWorker 0 = .moved s') : s'.Asked := by
  intro halive
  have hmem := hasked (stepWorker_actsOn hmove).2
  rcases stepWorker_queue hmove with hsame | ⟨item, hqueue, hstops⟩
  · exact hsame ▸ hmem
  · rcases List.mem_cons.mp (hqueue ▸ hmem) with hnone | hrest
    · simp [hstops hnone.symm] at halive
    · exact hrest

theorem Staffed.stepFirst (hstaffed : s.Staffed) : s.stepFirst 0 none [] = s.stepWorker 0 := by
  have hworker := hstaffed.worker
  rw [Server.stepFirst, if_pos (by omega)]
  cases s.stepWorker 0 with
  | moved s' => rfl
  | blocked wake children =>
    dsimp only
    rw [Server.stepFirst, if_neg (by omega)]
    rfl

theorem Staffed.stopped (hstaffed : s.Staffed) (hgone : s.isAlive 0 = false) :
    s.workers = [.stopped] := by
  obtain ⟨state, hworkers⟩ := List.length_eq_one_iff.mp hstaffed.worker
  cases state <;> simp [isAlive, hworkers] at hgone ⊢

/-- When the time of a cleaning has come, its worker has a move less to make. -/
theorem Winding.pass {until_ : Nat} (hwinding : s.Winding)
    (hworkers : s.workers = [.working job (.settling until_)])
    (hearly : s.host.machine.clock < until_) :
    Winding { s with host := s.host.pass [] until_ } ∧
      movesLeft { s with host := s.host.pass [] until_ } < s.movesLeft := by
  have hspares := spares_pass s [] until_
  refine ⟨⟨hwinding.toStaffed.spared hspares, hwinding.closed, fun job chain hworks => ?_⟩, ?_⟩
  · obtain ⟨language, level, hrunning⟩ := hworks
    cases (congrArg (·[0]?) hworkers).symm.trans hrunning
  · have hclock : until_ ≤ (s.host.pass [] until_).machine.clock :=
      s.host.machine.runUntil_clock until_
    have hlater : ¬ (s.host.pass [] until_).machine.clock < until_ := by omega
    simp [movesLeft, hworkers, leftFor_settling, hearly, hlater]

/-- A worker that was asked to stop does so once it has made the moves that are left. -/
theorem Winding.stops {fuel : Nat} (hwinding : s.Winding) (hasked : s.Asked)
    (hfuel : s.movesLeft ≤ fuel) :
    (workFor fuel (fun s => !s.isAlive 0) none s).workers = [.stopped] := by
  induction fuel generalizing s with
  | zero =>
    refine hwinding.stopped ?_
    have hempty : s.board.queue = [] := by
      unfold movesLeft at hfuel
      exact List.eq_nil_of_length_eq_zero (by omega)
    cases halive : s.isAlive 0 with
    | false => rfl
    | true =>
      have hmem := hasked halive
      rw [hempty] at hmem
      cases hmem
  | succ fuel ih =>
    unfold workFor
    split
    · next hgone => exact hwinding.stopped (by simpa using hgone)
    next hgoes =>
    have halive : s.isAlive 0 = true := by simpa using hgoes
    rw [hwinding.stepFirst]
    cases hstep : s.stepWorker 0 with
    | moved s' =>
      have hfewer := hwinding.fewer hstep
      exact ih (hwinding.work hstep) (hasked.work hstep) (by omega)
    | blocked wake children =>
      rcases hwinding.blocked hstep halive with
        hempty | ⟨job, until_, hworkers, hearly, rfl, rfl⟩
      · have hmem := hasked halive
        rw [hempty] at hmem
        cases hmem
      · obtain ⟨hpassed, hfewer⟩ := hwinding.pass hworkers hearly
        exact ih hpassed hasked (by omega)

theorem leftFor_le_seven (h : Host) (state : WorkerState) : leftFor h state ≤ 7 := by
  cases state with
  | working job activity =>
    cases activity with
    | running language level chain =>
      show chain.movesLeft h ≤ 7
      unfold Chain.movesLeft
      split
      · omega
      · split <;> omega
    | settling until_ =>
      rw [leftFor_settling]
      split <;> omega
    | _ => simp [leftFor]
  | _ => simp [leftFor]

/-- To stop such a server ends its worker. -/
theorem Winding.stop (hwinding : s.Winding) : (s.stop none).workers = [.stopped] := by
  let asked : Server := { s with board := s.board.putStop }
  have hasked : asked.Winding := ⟨⟨hwinding.worker, hwinding.active, hwinding.holder,
    hwinding.numbered⟩, hwinding.closed, hwinding.chain⟩
  have hfuel : asked.movesLeft ≤ asked.moveBudget := by
    obtain ⟨state, hworkers⟩ := List.length_eq_one_iff.mp hasked.worker
    have hstate := leftFor_le_seven asked.host state
    have hmany : Nat.pow 10 9 = 1000000000 := rfl
    unfold movesLeft moveBudget
    rw [hworkers, hmany, List.map_singleton, List.sum_singleton]
    omega
  have hstops := hasked.stops (fun _ => by simp [asked, Board.putStop]) hfuel
  unfold Server.stop
  split
  · next hnone => cases hwinding.active.symm.trans hnone
  · next worker hworker =>
    cases hwinding.active.symm.trans hworker
    exact hstops

end Ending

end SnippetRunner.Server
