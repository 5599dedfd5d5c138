import SnippetRunner.Proofs.Server.Scenes

/-!
Cancelling one job while others go on. The effect of a call goes through the token of the job, which
the chain of the job looks at, and through the children listed under its name. In whatever way the
sections of calls interleave with submitters, workers and others who use the tracker, neither way
leads to another job: every token has one job, and every chain uses the token and the name of the
job that it was made for.
-/
namespace SnippetRunner.Server

variable {s s' : Server} {k : Nat} {job : Job}

namespace Scene

/-- Somebody cancelled the job, by its name or with all jobs, while it was pending. -/
def Appealed (w : Scene) (job : Job) : Prop :=
  ∃ a ∈ w.appeals, (job.id, job) ∈ a.pending ∧ (a.name = none ∨ a.name = some job.id)

def Called (w : Scene) (token : Nat) : Prop :=
  ∃ job ∈ w.submitted, w.Appealed job ∧ job.token = token

def Safe (w : Scene) : Call → Prop
  | .marking _ tokens _ => ∀ token ∈ tokens, w.Called token
  | _ => True

/-- A child was in the snapshot that a call for a name took on the way from one scene to
another, which is to say that it was listed at that moment. -/
def Sighted (start w : Scene) (name : Option String) (child : Nat) : Prop :=
  ∃ v, Run start v ∧ .looking name ∈ v.calls ∧ child ∈ v.targets name ∧
    Run (v.next (.looking name) (.killing name (v.targets name))) w

variable {w w' : Scene}

section Keeping

structure Keeps (w w' : Scene) : Prop where
  appeals : w.appeals ⊆ w'.appeals
  submitted : w.submitted ⊆ w'.submitted
  listed : w.ledger.listed ⊆ w'.ledger.listed

theorem Step.keeps (h : Step w w') : Keeps w w' := by
  have hlisted (change : Option Tracker.Change) :=
    w.ledger.listed_mono w.server.host.tracker change
  have hsame (α : Type) (items : List α) : items ⊆ items := List.Subset.refl items
  cases h with
  | enter id kind => exact ⟨hsame .., List.subset_cons_self .., hsame ..⟩
  | work k s hmove => exact ⟨hsame .., hsame .., hlisted _⟩
  | track change => exact ⟨hsame .., hsame .., hlisted _⟩
  | ask id job hfound => exact ⟨List.subset_cons_self .., hsame .., hsame ..⟩
  | askAll close => exact ⟨List.subset_cons_self .., hsame .., hsame ..⟩
  | shut name hcall => exact ⟨hsame .., hsame .., hlisted _⟩
  | _ => exact ⟨hsame .., hsame .., hsame ..⟩

theorem Keeps.called (h : Keeps w w') {token : Nat} (hcalled : w.Called token) :
    w'.Called token := by
  obtain ⟨job, hjob, ⟨a, ha, hpending⟩, htoken⟩ := hcalled
  exact ⟨job, h.submitted hjob, ⟨a, h.appeals ha, hpending⟩, htoken⟩

theorem Keeps.safe (h : Keeps w w') {call : Call} (hsafe : w.Safe call) : w'.Safe call := by
  cases call with
  | marking name tokens close => exact fun token htoken => h.called (hsafe token htoken)
  | looking name => trivial
  | killing name targets => trivial

theorem Run.keeps (h : Run w w') : Keeps w w' := by
  induction h with
  | refl => exact ⟨List.Subset.refl _, List.Subset.refl _, List.Subset.refl _⟩
  | tail _ hstep ih =>
    have hkeeps := hstep.keeps
    exact ⟨fun _ h => hkeeps.appeals (ih.appeals h), fun _ h => hkeeps.submitted (ih.submitted h),
      fun _ h => hkeeps.listed (ih.listed h)⟩

end Keeping

section Jobs

structure Enrolled (w : Scene) : Prop where
  numbered : ∀ job ∈ w.submitted, job.token < w.server.nextToken
  tokens : (w.submitted.map Job.token).Nodup
  names : ∀ p ∈ w.server.board.pending, p.1 = p.2.id
  known : w.server.known ⊆ w.submitted

theorem Enrolled.handsOn (hw : Enrolled w) (h : HandsOn w.server s) (ledger : Tracker.Ledger) :
    Enrolled { w with server := s, ledger } where
  numbered job hjob := h.nextToken ▸ hw.numbered job hjob
  tokens := hw.tokens
  names p hp := hw.names p (h.pending hp)
  known _ hjob := hw.known (h.known hjob)

theorem mem_known : job ∈ s.known ↔ (∃ name, (name, job) ∈ s.board.pending) ∨
    some job ∈ s.board.queue ∨ ∃ state ∈ s.workers, job ∈ inHand state := by
  simp [known, mem_jobs]

theorem mem_pending_enter {b : Board} {p : String × Job} (h : p ∈ (b.enter job).pending) :
    p = (job.id, job) ∨ p ∈ b.pending := by
  unfold Board.enter at h
  split at h
  · obtain ⟨old, hold, rfl⟩ := List.mem_map.mp h
    split
    · exact .inl rfl
    · exact .inr hold
  · rcases List.mem_append.mp h with hold | hnew
    · exact .inr hold
    · exact .inl (List.mem_singleton.mp hnew)

theorem Enrolled.enter (hw : Enrolled w) (id : String) (kind : JobKind) :
    Enrolled (w.enter ⟨id, kind, w.server.nextToken⟩) where
  numbered job hjob := by
    show job.token < w.server.nextToken + 1
    rcases List.mem_cons.mp hjob with rfl | hold
    · exact Nat.lt_succ_self _
    · exact Nat.lt_succ_of_lt (hw.numbered job hold)
  tokens := by
    refine List.nodup_cons.mpr ⟨fun hmem => ?_, hw.tokens⟩
    obtain ⟨job, hjob, hsame⟩ := List.mem_map.mp hmem
    exact absurd hsame (Nat.ne_of_lt (hw.numbered job hjob))
  names p hp := by
    rcases mem_pending_enter hp with rfl | hold
    · rfl
    · exact hw.names p hold
  known job hjob := by
    rcases mem_known.mp hjob with ⟨name, hp⟩ | hqueued | hhand
    · rcases mem_pending_enter hp with hnew | hold
      · cases hnew
        exact List.mem_cons_self ..
      · exact List.mem_cons_of_mem _ (hw.known (mem_known.mpr (.inl ⟨name, hold⟩)))
    · have hold : some job ∈ w.server.board.queue := queue_enter .. ▸ hqueued
      exact List.mem_cons_of_mem _ (hw.known (mem_known.mpr (.inr (.inl hold))))
    · exact List.mem_cons_of_mem _ (hw.known (mem_known.mpr (.inr (.inr hhand))))

/-- Something is put in the queue. -/
theorem Enrolled.put (hw : Enrolled w) (item : Option Job)
    (hitem : ∀ job, item = some job → job ∈ w.submitted) :
    Enrolled (w.withBoard { w.server.board with queue := w.server.board.queue ++ [item] }) where
  numbered := hw.numbered
  tokens := hw.tokens
  names := hw.names
  known job hjob := by
    rcases mem_known.mp hjob with hpending | hqueued | hhand
    · exact hw.known (mem_known.mpr (.inl hpending))
    · rcases List.mem_append.mp hqueued with hold | hnew
      · exact hw.known (mem_known.mpr (.inr (.inl hold)))
      · exact hitem job (List.mem_singleton.mp hnew).symm
    · exact hw.known (mem_known.mpr (.inr (.inr hhand)))

theorem start_filed (s : Server) : Filed s s.start.1 := by
  unfold Server.start
  split
  · exact .refl s
  split
  · next heq => exact act_filed heq
  · next heq => exact (act_filed heq).trans ⟨rfl, rfl⟩

theorem start_handsOn (s : Server) : HandsOn s s.start.1 := by
  have hfiled := start_filed s
  refine ⟨hfiled.nextToken, ?_, fun job hjob => ?_⟩
  · rw [hfiled.board]
    exact List.Subset.refl _
  · rw [mem_known, hfiled.board] at hjob
    refine mem_known.mpr (hjob.imp_right (Or.imp_right ?_))
    rintro ⟨state, hstate, hhand⟩
    rcases start_workers s with hsame | hmore
    · exact ⟨state, hsame ▸ hstate, hhand⟩
    · rcases List.mem_append.mp (hmore ▸ hstate) with hold | hnew
      · exact ⟨state, hold, hhand⟩
      · rw [List.mem_singleton.mp hnew] at hhand
        cases hhand

theorem idle_handsOn (h : Idle s s') : HandsOn s s' where
  nextToken := h.nextToken
  pending := by
    rw [h.board]
    exact List.Subset.refl _
  known := by
    rw [Server.known, Server.known, h.board, h.workers]
    exact List.Subset.refl _

theorem Step.enrolled (h : Step w w') (hw : Enrolled w) : Enrolled w' := by
  cases h with
  | enter id kind => exact hw.enter id kind
  | put job hjob =>
    refine hw.put (some job) fun other hother => ?_
    cases hother
    exact hjob
  | putStop => exact hw.put none fun _ h => by cases h
  | start => exact hw.handsOn (start_handsOn _) _
  | work k s hmove => exact hw.handsOn (stepWorker_handsOn hmove) _
  | aside s hidle => exact hw.handsOn (idle_handsOn hidle) _
  | _ => exact ⟨hw.numbered, hw.tokens, hw.names, hw.known⟩

/-- Different jobs that were submitted have different tokens. -/
theorem Enrolled.eq_of_token (hw : Enrolled w) {other : Job} (hjob : job ∈ w.submitted)
    (hother : other ∈ w.submitted) (htoken : job.token = other.token) : job = other :=
  List.inj_on_of_nodup_map hw.tokens hjob hother htoken

end Jobs

section Calls

theorem Called.of_pending (hw : Enrolled w) {name : Option String}
    (hpending : (job.id, job) ∈ w.server.board.pending)
    (hname : name = none ∨ name = some job.id) : (w.appeal name).Called job.token := by
  have hjob : job ∈ w.submitted := hw.known (mem_known.mpr (.inl ⟨_, hpending⟩))
  exact ⟨job, hjob, ⟨_, List.mem_cons_self .., hpending, hname⟩, rfl⟩

/-- A call looks up tokens of pending jobs. -/
theorem Enrolled.ask_safe (hw : Enrolled w) {id : String}
    (hfound : w.server.board.find? id = some job) (close : Bool) :
    (w.appeal (some id)).Safe (.marking (some id) [job.token] close) := by
  intro token htoken
  have hmem := Tracker.mem_of_lookup hfound
  obtain rfl : id = job.id := hw.names _ hmem
  rw [List.mem_singleton.mp htoken]
  exact .of_pending hw hmem (.inr rfl)

theorem Enrolled.askAll_safe (hw : Enrolled w) (close : Bool) :
    (w.appeal none).Safe (.marking none w.server.board.tokens close) := by
  intro token htoken
  obtain ⟨⟨name, job⟩, hp, rfl⟩ := List.mem_map.mp htoken
  obtain rfl : name = job.id := hw.names _ hp
  exact .of_pending hw hp (.inl rfl)

/-- A call under way was so before, or the tokens that it is still to set are right. -/
theorem Step.calls (h : Step w w') (hw : Enrolled w) (hsafe : ∀ call ∈ w.calls, w.Safe call) :
    ∀ call ∈ w'.calls, w'.Safe call := by
  have hkeeps := h.keeps
  have hold : ∀ call ∈ w.calls, w'.Safe call := fun call hcall => hkeeps.safe (hsafe call hcall)
  have hnext {call' : Call} (call : Call) (hsafe' : w'.Safe call') :
      ∀ other ∈ call' :: w.calls.erase call, w'.Safe other := by
    intro other hother
    rcases List.mem_cons.mp hother with rfl | hmem
    · exact hsafe'
    · exact hold other (List.mem_of_mem_erase hmem)
  cases h with
  | ask id job hfound =>
    intro call hcall
    rcases List.mem_cons.mp hcall with rfl | hmem
    · exact hw.ask_safe hfound false
    · exact hold call hmem
  | askAll close =>
    intro call hcall
    rcases List.mem_cons.mp hcall with rfl | hmem
    · exact hw.askAll_safe close
    · exact hold call hmem
  | mark name token tokens close hcall =>
    exact hnext _ fun other hother =>
      hkeeps.called (hsafe _ hcall other (List.mem_cons_of_mem _ hother))
  | marked name hcall => exact hnext _ trivial
  | shut name hcall => exact hnext _ trivial
  | look name hcall => exact hnext _ trivial
  | kill name child targets hcall => exact hnext _ trivial
  | done name hcall => exact fun call hmem => hold call (List.mem_of_mem_erase hmem)
  | _ => exact hold

end Calls

section Snapshots

variable {start : Scene}

theorem Sighted.step {name : Option String} {child : Nat} (h : Sighted start w name child)
    (hstep : Step w w') : Sighted start w' name child := by
  obtain ⟨v, hbefore, hlooking, htarget, hafter⟩ := h
  exact ⟨v, hbefore, hlooking, htarget, hafter.tail hstep⟩

/-- What calls kill, and have killed, was in a snapshot. -/
structure Sightings (start w : Scene) : Prop where
  calls : ∀ name targets, .killing name targets ∈ w.calls →
    ∀ child ∈ targets, Sighted start w name child
  kills : ∀ name child, (name, child) ∈ w.kills → Sighted start w name child

theorem Step.sightings (hrun : Run start w) (h : Step w w') (hw : Sightings start w) :
    Sightings start w' := by
  have hcalls : ∀ name targets, .killing name targets ∈ w.calls →
      ∀ child ∈ targets, Sighted start w' name child :=
    fun name targets hcall child hchild => (hw.calls name targets hcall child hchild).step h
  have hkills : ∀ name child, (name, child) ∈ w.kills → Sighted start w' name child :=
    fun name child hkill => (hw.kills name child hkill).step h
  -- A call that goes on to anything but kills leaves the children of other calls as they were.
  have hnext {call call' : Call} (hnot : ∀ name targets, call' ≠ .killing name targets) :
      ∀ name targets, .killing name targets ∈ call' :: w.calls.erase call →
        ∀ child ∈ targets, Sighted start w' name child := by
    intro name targets hcall
    rcases List.mem_cons.mp hcall with hnew | hold
    · exact absurd hnew.symm (hnot name targets)
    · exact hcalls name targets (List.mem_of_mem_erase hold)
  have hasked {call : Call} (hnot : ∀ name targets, call ≠ .killing name targets) :
      ∀ name targets, .killing name targets ∈ call :: w.calls →
        ∀ child ∈ targets, Sighted start w' name child := by
    intro name targets hcall
    rcases List.mem_cons.mp hcall with hnew | hold
    · exact absurd hnew.symm (hnot name targets)
    · exact hcalls name targets hold
  cases h with
  | ask id job hfound => exact ⟨hasked nofun, hkills⟩
  | askAll close => exact ⟨hasked nofun, hkills⟩
  | mark name token tokens close _ => exact ⟨hnext nofun, hkills⟩
  | marked name _ => exact ⟨hnext nofun, hkills⟩
  | shut name _ => exact ⟨hnext nofun, hkills⟩
  | look name hlooking =>
    refine ⟨fun other targets hcall child hchild => ?_, hkills⟩
    rcases List.mem_cons.mp hcall with hnew | hold
    · cases hnew
      exact ⟨w, hrun, hlooking, hchild, .refl⟩
    · exact hcalls other targets (List.mem_of_mem_erase hold) child hchild
  | kill name child targets hkilling =>
    constructor
    · intro other targets' hcall child' hchild
      rcases List.mem_cons.mp hcall with hnew | hold
      · cases hnew
        exact hcalls name _ hkilling child' (List.mem_cons_of_mem _ hchild)
      · exact hcalls other targets' (List.mem_of_mem_erase hold) child' hchild
    · intro other child' hkill
      rcases List.mem_cons.mp hkill with hnew | hold
      · cases hnew
        exact hcalls name _ hkilling child (List.mem_cons_self ..)
      · exact hkills other child' hold
  | done name _ =>
    exact ⟨fun other targets hcall => hcalls other targets (List.mem_of_mem_erase hcall), hkills⟩
  | _ => exact ⟨hcalls, hkills⟩

theorem Run.sightings (hcalls : start.calls = []) (hkills : start.kills = [])
    (h : Run start w) : Sightings start w := by
  induction h with
  | refl => exact ⟨by simp [hcalls], by simp [hkills]⟩
  | tail hrun hstep ih => exact hstep.sightings hrun ih

end Snapshots

section Chains

/-- The chain of a job is stopped by the token of the job, and its child was listed under the
name of the job. -/
structure Fits (w : Scene) (job : Job) (chain : Chain) : Prop where
  plan : chain.plan.For job.id job.token
  child : ∀ r, chain.running = some r → (job.id, r.spawned.child) ∈ w.ledger.listed

variable {chain : Chain}

theorem Keeps.fits (h : Keeps w w') (hfits : w.Fits job chain) : w'.Fits job chain :=
  ⟨hfits.plan, fun r hr => h.listed (hfits.child r hr)⟩

theorem start_works (hworks : Works s.start.1 k job chain) : Works s k job chain := by
  obtain ⟨language, level, hworker⟩ := hworks
  refine ⟨language, level, ?_⟩
  rcases start_workers s with hsame | hmore
  · rwa [← hsame]
  · rw [hmore, List.getElem?_append] at hworker
    split at hworker
    · exact hworker
    · cases List.mem_singleton.mp (List.mem_of_getElem? hworker)

/-- A chain after a move of a worker is one of another worker, or one of which nothing was run,
or it was moved just now. -/
theorem stepWorker_works {i : Nat} (hmove : s.stepWorker k = .moved s')
    (hworks : Works s' i job chain) : Works s i job chain ∨ Unbegun job chain ∨
      ∃ before host, Works s k job before ∧ s.change? k = before.change? s.host ∧
        before.step s.host = .moved host chain := by
  obtain ⟨language, level, hworker⟩ := hworks
  by_cases hik : i = k
  · subst hik
    rcases (stepWorker_follows hmove).chain job chain ⟨language, level, hworker⟩ with
      hfresh | ⟨before, hbefore, hstep⟩
    · exact .inr (.inl hfresh)
    · obtain ⟨_, _, hrunning⟩ := id hbefore
      exact .inr (.inr ⟨before, s'.host, hbefore, change?_running hrunning, hstep⟩)
  · obtain ⟨next, hworkers⟩ := (stepWorker_actsOn hmove).1.workers
    rw [hworkers, List.getElem?_set_ne (Ne.symm hik)] at hworker
    exact .inl ⟨language, level, hworker⟩

/-- A chain that was moved has its old child, or one that was listed by the move. -/
theorem Fits.moved {before : Chain} {h h' : Host} (hfits : w.Fits job before)
    (hstep : before.step h = .moved h' chain) (t : Tracker) :
    Fits { w with ledger := w.ledger.enter t (before.change? h) } job chain := by
  have hplan : chain.plan = before.plan := (Chain.Moves.keeps (Chain.step_moves hstep)).1
  refine ⟨hplan ▸ hfits.plan, fun r hr => ?_⟩
  rcases Chain.step_child hstep hr with ⟨old, hold, hsame⟩ | hlisted
  · rw [hsame]
    exact w.ledger.listed_mono t _ (hfits.child old hold)
  · rw [hlisted, hfits.plan.job]
    exact List.mem_cons_self ..

theorem Step.fits (h : Step w w')
    (hw : ∀ k job chain, Works w.server k job chain → w.Fits job chain) :
    ∀ k job chain, Works w'.server k job chain → w'.Fits job chain := by
  intro i job chain hworks
  have hkeeps := h.keeps
  cases h with
  | start => exact hkeeps.fits (hw i job chain (start_works hworks))
  | work k s hmove =>
    rcases stepWorker_works hmove hworks with
      hold | hfresh | ⟨before, host, hbefore, hchange, hstep⟩
    · exact hkeeps.fits (hw i job chain hold)
    · refine ⟨hfresh.plan, fun r hr => ?_⟩
      rw [hfresh.idle] at hr
      cases hr
    · have hmoved := (hw k job before hbefore).moved hstep w.server.host.tracker
      rw [← hchange] at hmoved
      exact ⟨hmoved.plan, hmoved.child⟩
  | aside s hidle => exact hkeeps.fits (hw i job chain (hworks.of_workers hidle.workers))
  | _ => exact hkeeps.fits (hw i job chain hworks)

end Chains

section Effects

theorem mem_cancelled_cancel {h : Host} {token other : Nat}
    (hmem : other ∈ (h.cancel token).cancelled) : other = token ∨ other ∈ h.cancelled := by
  unfold Host.cancel at hmem
  split at hmem
  · exact .inr hmem
  · exact List.mem_cons.mp hmem

theorem Step.tallies (h : Step w w') (hw : w.server.host.tracker.Tallies w.ledger) :
    w'.server.host.tracker.Tallies w'.ledger := by
  cases h with
  | start => exact (start_sends w.server).tracker ▸ hw
  | work k s hmove =>
    rw [stepWorker_tracker hmove]
    exact hw.enter _
  | track change => exact hw.enter _
  | mark name token tokens close hcall => exact (cancel_tracker w.server.host token).symm ▸ hw
  | shut name hcall => exact hw.enter (some .close)
  | aside s hidle => exact hidle.tracker ▸ hw
  | _ => exact hw

theorem Step.cancelled (h : Step w w') (hsafe : ∀ call ∈ w.calls, w.Safe call)
    (hw : ∀ token ∈ w.server.host.cancelled, w.Called token) :
    ∀ token ∈ w'.server.host.cancelled, w'.Called token := by
  intro token htoken
  have hkeeps := h.keeps
  refine hkeeps.called ?_
  cases h with
  | start => exact hw token ((start_sends w.server).cancelled ▸ htoken)
  | work k s hmove => exact hw token ((stepWorker_follows hmove).cancelled ▸ htoken)
  | mark name other tokens close hcall =>
    rcases mem_cancelled_cancel htoken with rfl | hold
    · exact hsafe _ hcall token (List.mem_cons_self ..)
    · exact hw token hold
  | aside s hidle => exact hw token (hidle.cancelled ▸ htoken)
  | _ => exact hw token htoken

end Effects

structure Sound (w : Scene) : Prop where
  enrolled : Enrolled w
  tallies : w.server.host.tracker.Tallies w.ledger
  calls : ∀ call ∈ w.calls, w.Safe call
  cancelled : ∀ token ∈ w.server.host.cancelled, w.Called token
  fits : ∀ k job chain, Works w.server k job chain → w.Fits job chain

theorem Step.sound (h : Step w w') (hw : Sound w) : Sound w' where
  enrolled := h.enrolled hw.enrolled
  tallies := h.tallies hw.tallies
  calls := h.calls hw.enrolled hw.calls
  cancelled := h.cancelled hw.calls hw.cancelled
  fits := h.fits hw.fits

theorem Run.sound (h : Run w w') (hw : Sound w) : Sound w' := by
  induction h with
  | refl => exact hw
  | tail _ hstep ih => exact hstep.sound ih

end Scene

/-- No job was submitted, no worker started, nothing listed and nothing cancelled. -/
structure Blank (s : Server) : Prop where
  board : s.board = {}
  workers : s.workers = []
  tracker : s.host.tracker = .empty
  cancelled : s.host.cancelled = []

namespace Scene

theorem blank_sound (h : Blank s) : Sound { server := s } where
  enrolled := ⟨by simp, List.nodup_nil, by simp [h.board],
    by simp [known, jobs, h.board, h.workers]⟩
  tallies := h.tracker ▸ Tracker.tallies_empty
  calls call hcall := by cases hcall
  cancelled token htoken := by simp [h.cancelled] at htoken
  fits k job chain hworks := by
    obtain ⟨_, _, hworker⟩ := hworks
    simp [h.workers] at hworker

/-- A child that was in a snapshot for a name had been listed under it. -/
theorem Sighted.listed {start : Scene} (hstart : Sound start) {name : String} {child : Nat}
    (h : Sighted start w (some name) child) : (name, child) ∈ w.ledger.listed := by
  obtain ⟨v, hbefore, -, htarget, hafter⟩ := h
  exact hafter.keeps.listed ((hbefore.sound hstart).tallies.listed htarget)

/-- A chain whose token is cancelled is that of a job that somebody cancelled. -/
theorem Sound.appealed (hw : Sound w) {chain : Chain} (hworks : Works w.server k job chain)
    (hcancelled : w.server.host.isCancelled chain.plan.token = true) : w.Appealed job := by
  have hplan := (hw.fits k job chain hworks).plan
  rw [hplan.token] at hcancelled
  obtain ⟨other, hother, happealed, htoken⟩ :=
    hw.cancelled job.token (List.contains_iff_mem.mp hcancelled)
  have hjob : job ∈ w.submitted := by
    obtain ⟨_, _, hworker⟩ := hworks
    refine hw.enrolled.known (mem_known.mpr (.inr (.inr ⟨_, List.mem_of_getElem? hworker, ?_⟩)))
    exact List.mem_singleton.mpr rfl
  rwa [hw.enrolled.eq_of_token hjob hother htoken.symm]

end Scene

section Status

variable {chain : Chain} {h h' : Host} {o : Outcome}

/-- A chain that ends as cancelled has seen its token cancelled. -/
theorem isCancelled_of_step (hstep : chain.step h = .done h' o) (hstatus : o.status = .cancelled) :
    h.isCancelled chain.plan.token = true := by
  cases Chain.step_finishes hstep with
  | complete hrunning hleft => cases hstatus
  | stopped argv rest hrunning hleft hcancelled => exact hcancelled
  | ends r h'' status hrunning hended hverdict =>
    cases hstatus
    exact (Chain.Watched.verdict_cancelled.mp hverdict).2

end Status

structure Isolated (start w : Scene) : Prop where
  /-- A call kills only what was listed, for a call for one job under its name, at the moment
  when the call took its snapshot. -/
  kills : ∀ name child, (name, child) ∈ w.kills → Scene.Sighted start w name child
  /-- So it kills no child of another job, unless somebody listed a child under two names. -/
  apart : ∀ name child, (some name, child) ∈ w.kills →
    ∀ other, (other, child) ∈ w.ledger.listed →
      (∀ a b n, (a, n) ∈ w.ledger.listed → (b, n) ∈ w.ledger.listed → a = b) → other = name
  /-- The tracker lists under each job what was listed and not taken off, and no job without
  children. -/
  tallies : w.server.host.tracker.Tallies w.ledger
  /-- The child of a job was listed under its name. -/
  child : ∀ k job chain r, Works w.server k job chain → chain.running = some r →
    (job.id, r.spawned.child) ∈ w.ledger.listed
  /-- A chain is told to stop only if its job was cancelled while it was pending, -/
  stopped : ∀ k job chain, Works w.server k job chain →
    w.server.host.isCancelled chain.plan.token = true → w.Appealed job
  /-- and so it is with a chain that ends as cancelled. -/
  cancelled : ∀ k job chain h o, Works w.server k job chain →
    chain.step w.server.host = .done h o → o.status = .cancelled → w.Appealed job

/-- A server as it is made is blank, if its host is new. -/
theorem create_blank {settings : Settings} {catalog : Catalog} {delegate : Delegate} {h : Host}
    (hok : (create settings catalog delegate h).2 = .ok s) (htracker : h.tracker = .empty)
    (hcancelled : h.cancelled = []) : Blank s := by
  have htouches := (Act.gentle_files (Workspace.ensure_grows ⟨settings.workDir, h.cwd⟩)).touches h
  unfold create at hok
  dsimp only at hok
  split at hok
  · next made host heq =>
    have hhost : (Success.result (Act.files (Workspace.ensure ⟨settings.workDir, h.cwd⟩)) h).2 =
        host := congrArg Prod.snd heq
    rw [hhost] at htouches
    split at hok
    · cases hok
    · cases hok
      exact ⟨rfl, rfl, htouches.tracker.trans htracker, htouches.cancelled.trans hcancelled⟩

/-- Whatever submitters, workers, cancellers and others who use the tracker do, and in whatever
order the sections of their calls interleave, cancelling one job hits no other one. Calls that
nobody disturbs are among what may happen, and kill just the children that they are for. -/
theorem cancel_isolated {w : Scene} (hblank : Blank s) (hrun : Scene.Run { server := s } w) :
    Isolated { server := s } w ∧
      (∀ id job, w.server.board.find? id = some job → Scene.Run w (w.afterCancel id)) ∧
      ∀ close, Scene.Run w (w.afterCancelAll close) := by
  have hstart := Scene.blank_sound hblank
  have hsound := hrun.sound hstart
  have hsightings := hrun.sightings rfl rfl
  refine ⟨?_, fun id job hfound => w.cancel_run hfound, w.cancelAll_run⟩
  exact {
    kills := hsightings.kills
    apart := fun name child hkill other hother hone =>
      hone other name child hother ((hsightings.kills _ _ hkill).listed hstart)
    tallies := hsound.tallies
    child := fun k job chain r hworks hr => (hsound.fits k job chain hworks).child r hr
    stopped := fun k job chain hworks => hsound.appealed hworks
    cancelled := fun k job chain h o hworks hstep hstatus =>
      hsound.appealed hworks (isCancelled_of_step hstep hstatus) }

section Scripting

open Success

def plainLanguage : Descriptor where
  name := "j"
  level := .bloc
  extension := ".j"
  commands := [["j"]]

def scriptJob : Job :=
  ⟨"first", .run (some ⟨⟨.root, ["A.j"]⟩, 1, 1, ⟨.root, []⟩, some "j", none⟩), 1⟩

def scriptSnippet : Snippet where
  descriptor := plainLanguage
  level := .bloc
  fragments := [⟨"1", .selection, ⟨.root, ["A.j"]⟩, 1, none⟩]

def scriptChain : Chain where
  plan := {
    steps := [["j"]]
    cwd := ⟨.root, ["w", "j"]⟩
    job := "first"
    token := 1
    engine := {} }
  left := [["j"]]
  startedAt := 0

/-- A server that knows one language and has one file to run. -/
def scriptServer : Server :=
  { idleServer with
    catalog := ⟨[("j", plainLanguage)], [], []⟩
    workspace := ⟨⟨.root, ["w"]⟩, []⟩
    host := { idleServer.host with
      machine := .start ⟨[(["A.j"], .file (Text.encodeUtf8 "1\n") false)]⟩ } }

def laidServer : Server :=
  { scriptServer with
    board := ⟨[some scriptJob], [("first", scriptJob), ("second", ⟨"second", .clean, 2⟩)], none⟩
    nextToken := 3 }

def scriptingServer (activity : Activity) : Server :=
  { laidServer with
    host := { scriptServer.host with
      tracker := ⟨[("first", [7]), ("second", [8])], false⟩
      cancelled := [1] }
    board := ⟨[], laidServer.board.pending, some scriptJob⟩
    workers := [.working scriptJob activity]
    active := some 0 }

theorem laidServer_started :
    Idle laidServer.start.1 { laidServer with workers := [.waiting], active := some 0 } := by
  have hensure : (outcome laidServer.workspace.ensure laidServer.host.machine.tree).1 =
      .ok ⟨.root, ["w"]⟩ := by cbv
  have hfiled := Scene.start_filed laidServer
  have hsends := start_sends laidServer
  obtain ⟨host, hstart⟩ := start_eq rfl hensure
  refine ⟨⟨hfiled.board.symm, hfiled.nextToken.symm⟩, ?_, hsends.tracker.symm,
    hsends.cancelled.symm⟩
  rw [hstart]
  rfl

/-- Besides the worker, a move of it changes nothing that others go by. -/
theorem scriptingServer_moved {activity next : Activity}
    (hmove : (scriptingServer activity).stepWorker 0 = .moved s)
    (hquiet : (scriptingServer activity).change? 0 = none)
    (hworkers : s.workers = [.working scriptJob next]) : Idle s (scriptingServer next) := by
  have hactivity : (scriptingServer activity).stepActivity 0 scriptJob activity = .moved s := hmove
  have hfiled := stepActivity_filed hactivity
  have htracker := stepWorker_tracker hmove
  rw [hquiet] at htracker
  exact ⟨⟨hfiled.board.symm, hfiled.nextToken.symm⟩, hworkers.symm, htracker.symm,
    (stepWorker_follows hmove).cancelled.symm⟩

theorem resolve_scripting : ∃ t, (scriptingServer .starting).stepWorker 0 = .moved t ∧
    t.workers = [.working scriptJob (.resolved (.described plainLanguage .bloc scriptSnippet))] :=
  ⟨_, rfl, by cbv⟩

theorem begin_scripting :
    ∃ t, (scriptingServer (.resolved (.described plainLanguage .bloc scriptSnippet))).stepWorker 0 =
        .moved t ∧ t.workers = [.working scriptJob (.running "j" .bloc scriptChain)] :=
  ⟨_, rfl, by cbv⟩

/-- A job is told to stop while its worker is on it. Between the snapshot and the kill one child is
taken off the list of the job and another one is put there, which lives on; the chain of the job
ends as cancelled. -/
theorem cancel_isolated_scripting : Blank scriptServer ∧
    ∃ w, Scene.Run { server := scriptServer } w ∧ Isolated { server := scriptServer } w ∧
      w.kills = [(some "first", 7)] ∧
      w.server.host.tracker.jobs = [("second", [8]), ("first", [9])] ∧
      ∃ h o, scriptChain.step w.server.host = .done h o ∧ o.status = .cancelled ∧
        w.Appealed scriptJob := by
  have hblank : Blank scriptServer := ⟨rfl, rfl, rfl, rfl⟩
  have h := Relation.ReflTransGen.refl (r := Scene.Step) (a := { server := scriptServer })
  have h := h.tail (.enter "first" scriptJob.kind)
  have h := h.tail (.put scriptJob (List.mem_singleton.mpr rfl))
  have h := h.tail (.enter "second" .clean)
  have h := h.tail .start
  have h := h.tail (.aside _ laidServer_started)
  have h := h.tail (.work 0 _ rfl)
  have h := h.tail (.work 0 _ rfl)
  have h := h.tail (.track (.list "first" 7))
  have h := h.tail (.track (.list "second" 8))
  -- The token is set before the job is resolved, and the snapshot is taken when its chain is there.
  have h := h.tail (.ask "first" scriptJob rfl)
  have h := h.tail (.mark (some "first") 1 [] false (List.mem_singleton.mpr rfl))
  obtain ⟨resolved, hresolved, hsnippet⟩ := resolve_scripting
  have h := h.tail (.work 0 _ hresolved)
  have h := h.tail (.aside _ (scriptingServer_moved hresolved rfl hsnippet))
  obtain ⟨begun, hbegun, hchain⟩ := begin_scripting
  have h := h.tail (.work 0 _ hbegun)
  have h := h.tail (.aside _ (scriptingServer_moved hbegun rfl hchain))
  have h := h.tail (.marked (some "first") (List.mem_cons_self ..))
  have h := h.tail (.look (some "first") (List.mem_cons_self ..))
  have h := h.tail (.track (.unlist "first" 7))
  have h := h.tail (.track (.list "first" 9))
  have h := h.tail (.kill (some "first") 7 [] (List.mem_cons_self ..))
  have hisolated := (cancel_isolated hblank h).1
  refine ⟨hblank, _, h, hisolated, rfl, rfl, _, _, rfl, rfl, ?_⟩
  exact hisolated.cancelled 0 scriptJob scriptChain _ _ ⟨_, _, rfl⟩ rfl rfl

end Scripting

end SnippetRunner.Server
