import SnippetRunner.Proofs.Execution.Deeds
import SnippetRunner.Proofs.Machine.Numbering

/-!
The course of a child of a chain. It is started and listed, waited for and killed at most once
meanwhile, and when its end was found its group is killed before it is taken off the list. Each
move of a chain adds a part of a course, and what is done fits the host it is done on; numbers of
children are not given twice, so a child that is started is not listed yet.
-/
namespace SnippetRunner

namespace SpawnPlan

variable (p : SpawnPlan) (m : Machine)

theorem openInput_still : Machine.Still m (p.openInput m).1 := by
  unfold openInput
  split
  · exact .refl m
  · exact Machine.newPipe_still m _

theorem openOutputs_still : Machine.Still m (p.openOutputs m).1 := by
  unfold openOutputs
  dsimp only
  split
  · exact (Machine.newSink_still m _).trans (Machine.newSink_still _ _)
  · exact Machine.newSink_still m _

open Success in
/-- A child that is started has a number that was not given before, and has not ended. -/
theorem start_machine {p : SpawnPlan} {h h' : Host} {spawned : Spawned}
    (hstart : p.start h = .ok (h', spawned)) :
    ∃ c : Child, c.place = (spawned.child, spawned.child) ∧ c.ending = none ∧
      h.machine.nextId ≤ spawned.child ∧ spawned.child < h'.machine.nextId ∧
      h'.machine.children =
        (h.machine.children.map fun x => if x.id == spawned.child then c else x) ++ [c] := by
  unfold SpawnPlan.start at hstart
  by_cases hempty : p.argv.isEmpty = true
  · rw [if_pos hempty] at hstart
    cases hstart
  rw [if_neg hempty] at hstart
  by_cases hnul : p.hasNul = true
  · rw [if_pos hnul] at hstart
    cases hstart
  rw [if_neg hnul] at hstart
  obtain ⟨cwd, -, hstart⟩ := bind_eq_ok.mp hstart
  obtain ⟨image, -, hstart⟩ := bind_eq_ok.mp hstart
  have hopened := (openInput_still p h.machine).trans (openOutputs_still p _)
  dsimp only at hstart
  generalize (p.openOutputs (p.openInput h.machine).1).1 = m at hstart hopened
  generalize hchild : p.newChild m.nextId cwd _ = child at hstart
  obtain ⟨hplace, hending⟩ := Machine.launch_child
    { m with children := m.children ++ [child], nextId := m.nextId + 1 } child image
  have hloaded := Machine.launch_still
    { m with children := m.children ++ [child], nextId := m.nextId + 1 } child image
  generalize Machine.launch _ child image = launched at hstart hplace hending hloaded
  cases hstart
  subst hchild
  have hid : launched.2.id = m.nextId := congrArg Prod.fst hplace
  refine ⟨launched.2, hplace, hending, hopened.nextId, hloaded.nextId, ?_⟩
  show launched.1.children.map _ = _
  rw [hloaded.children, hid, ← hopened.children, List.map_append]
  exact congrArg _ (congrArg (· :: []) (if_pos (beq_self_eq_true _)))

theorem start_child {p : SpawnPlan} {h h' : Host} {spawned : Spawned}
    (hstart : p.start h = .ok (h', spawned)) :
    h.machine.nextId ≤ spawned.child ∧ spawned.child < h'.machine.nextId := by
  obtain ⟨c, -, -, hnew, hgiven, -⟩ := start_machine hstart
  exact ⟨hnew, hgiven⟩

theorem start_tracker {p : SpawnPlan} {h h' : Host} {spawned : Spawned}
    (hstart : p.start h = .ok (h', spawned)) : h'.tracker = h.tracker := by
  obtain ⟨machine, rfl⟩ := start_host hstart
  rfl

end SpawnPlan

def ChainProgress.running : ChainProgress → Option RunningStep
  | .moved _ c => c.running
  | .waiting _ c _ => c.running
  | .done _ _ => none
  | .failed _ _ => none

namespace Chain

section Courses

/-- Entries of the log are no part of a child's course. -/
def Deed.counts : Deed → Bool
  | note _ => false
  | _ => true

def Trace.courses (t : Trace) : List Deed := (t.map (·.2)).filter Deed.counts

structure Opening where
  plan : SpawnPlan
  spawned : Spawned
  refused : Bool
  deadline : Option Int
  stop : Option Stop := none

def Opening.deeds (k : Opening) : List Deed :=
  [.start k.plan k.spawned, .list k.spawned.child] ++
    (if k.refused then [.kill k.spawned.child .refused] else []) ++
    .await k.spawned.child k.deadline ::
      k.stop.toList.map fun stop => .kill k.spawned.child (.stopped stop)

structure Course extends Opening where
  shown : StepReport

def Course.deeds (k : Course) : List Deed :=
  k.toOpening.deeds ++ [.reap k.spawned.child, .kill k.spawned.child .leftover, .tell k.shown,
    .unlist k.spawned.child, .release k.spawned]

/-- A child is told to have run out of time exactly if it was killed for its deadline. -/
structure Course.Told (k : Course) : Prop where
  due : ∀ d, k.stop = some (.overdue d) → k.deadline = some d
  timedOut : k.shown.timedOut = true ↔ ∃ d, k.stop = some (.overdue d)

def Cause.Fits (p : ChainPlan) (h : Host) (child : Nat) : Cause → Prop
  | refused => h.tracker.closed = true
  | stopped .cancelled => h.lives child = true ∧ h.isCancelled p.token = true
  | stopped (.overdue d) =>
    h.lives child = true ∧ h.isCancelled p.token = false ∧ d < (h.machine.clock : Int)
  | leftover => h.lives child = false

def Deed.Fits (p : ChainPlan) (h : Host) : Deed → Prop
  | note _ => True
  | start plan spawned => ∃ started, plan.start h = .ok (started, spawned)
  | list child => child ∉ h.tracker.children
  | await child deadline => child ∈ h.tracker.ofJob p.job ∧ deadline = p.deadline? h
  | kill child cause => child ∈ h.tracker.ofJob p.job ∧ cause.Fits p h child
  | reap child => child ∈ h.tracker.ofJob p.job ∧ h.lives child = false
  | tell _ => True
  | unlist child => child ∈ h.tracker.ofJob p.job ∧ h.Extinct child
  | release spawned => h.Extinct spawned.child

def Trace.Fits (p : ChainPlan) (t : Trace) : Prop := ∀ e ∈ t, e.2.Fits p e.1

def Stop.isOverdue : Stop → Bool
  | cancelled => false
  | overdue _ => true

/-- How the course of a child goes with the step that runs. -/
structure Opening.Of (k : Opening) (r : RunningStep) : Prop where
  spawned : k.spawned = r.spawned
  deadline : k.deadline = r.deadline
  killed : r.killed = k.stop.isSome
  due : ∀ d, k.stop = some (.overdue d) → k.deadline = some d
  timedOut : r.timedOut = k.stop.any Stop.isOverdue

variable {p : ChainPlan} {t : Trace}

theorem fits_append {t' : Trace} : Trace.Fits p (t ++ t') ↔ t.Fits p ∧ t'.Fits p :=
  List.forall_mem_append

theorem courses_append (t : Trace) (job : String) (ds : List Deed) (h : Host) :
    Trace.courses (t ++ Deed.trace job ds h) = t.courses ++ ds.filter Deed.counts := by
  simp [Trace.courses, Deed.map_trace]

theorem any_isOverdue {stop : Option Stop} :
    stop.any Stop.isOverdue = true ↔ ∃ d, stop = some (.overdue d) := by
  rcases stop with _ | _ | _ <;> simp [Stop.isOverdue]

end Courses

/-- What else happens neither lists children nor takes them off, and gives no number twice. -/
structure Leaves (h h' : Host) : Prop where
  jobs : h'.tracker.jobs = h.tracker.jobs
  numbers : h.machine.nextId ≤ h'.machine.nextId

section Asides

variable {h h' h'' : Host}

theorem Leaves.refl (h : Host) : Leaves h h := ⟨rfl, Nat.le_refl _⟩

theorem Leaves.trans (hleaves : Leaves h h') (hleaves' : Leaves h' h'') : Leaves h h'' :=
  ⟨hleaves'.jobs.trans hleaves.jobs, Nat.le_trans hleaves.numbers hleaves'.numbers⟩

/-- All that a trace tells was done on the way from one host to another, and nothing else but what
leaves the children alone. -/
def Trace.Leads (job : String) : Trace → Host → Host → Prop
  | [], h, h' => Leaves h h'
  | (on, d) :: rest, h, h' => Leaves h on ∧ Trace.Leads job rest (d.perform job on) h'

theorem Leaves.leads {t : Trace} {job : String} (hleaves : Leaves h h')
    (hleads : t.Leads job h' h'') : t.Leads job h h'' := by
  cases t with
  | nil => exact hleaves.trans hleads
  | cons e rest => exact ⟨hleaves.trans hleads.1, hleads.2⟩

theorem leads_append {t t' : Trace} {job : String} (hleads : t.Leads job h h')
    (hleads' : t'.Leads job h' h'') : Trace.Leads job (t ++ t') h h'' := by
  induction t generalizing h with
  | nil => exact Leaves.leads hleads hleads'
  | cons e rest ih => exact ⟨hleads.1, ih hleads.2⟩

theorem leads_trace (job : String) (ds : List Deed) (h : Host) :
    (Deed.trace job ds h).Leads job h (Deed.performAll job ds h) := by
  induction ds generalizing h with
  | nil => exact .refl h
  | cons d rest ih => exact ⟨.refl h, ih _⟩

theorem foldl_leaves {α : Type} {f : Host → α → Host} (hf : ∀ h a, Leaves h (f h a)) (l : List α)
    (h : Host) : Leaves h (l.foldl f h) := by
  induction l generalizing h with
  | nil => exact .refl h
  | cons a rest ih => exact (hf h a).trans (ih _)

theorem cancel_leaves (h : Host) (token : Nat) : Leaves h (h.cancel token) := by
  unfold Host.cancel
  split <;> exact ⟨rfl, Nat.le_refl _⟩

theorem ring_leaves (h : Host) (timers : Timers) : Leaves h (ring h timers).1 := by
  unfold ring
  exact foldl_leaves (fun h (timer : Nat × Nat) => cancel_leaves h timer.2) _ h

/-- Children that run have no part in the tracker. -/
theorem pass_leaves (h : Host) (children : List Nat) (limit : Nat) :
    Leaves h (h.pass children limit) :=
  ⟨rfl, (Machine.runUntil_onward h.machine (Machine.placed_any _) children limit).nextId⟩

end Asides

section Polling

variable {h : Host} {r : RunningStep} {c : Chain} {k : Opening}

theorem poll_leaves (c : Chain) (h : Host) (r : RunningStep) : Leaves h (c.poll h r).host where
  jobs := congrArg Tracker.jobs (poll_tracker c h r)
  numbers := by
    unfold poll
    dsimp only
    split
    · exact Nat.le_refl _
    split
    · exact Nat.le_refl _
    split <;> exact Nat.le_refl _

/-- What a look at a child makes of the step. -/
theorem poll_running (c : Chain) (h : Host) (r : RunningStep) :
    ∃ r', (c.poll h r).running = some r' ∧ r'.spawned = r.spawned ∧ r'.deadline = r.deadline ∧
      r'.killed = (r.killed || (c.stop? h r).isSome) ∧
      r'.timedOut = (r.timedOut || (c.stop? h r).any Stop.isOverdue) := by
  unfold poll stop?
  dsimp only
  split
  · exact ⟨_, rfl, rfl, rfl, by simp, by simp⟩
  split
  · exact ⟨_, rfl, rfl, rfl, by simp, by simp [Stop.isOverdue]⟩
  cases r.deadline with
  | none => exact ⟨_, rfl, rfl, rfl, by simp, by simp⟩
  | some d =>
    by_cases hover : d < (h.machine.clock : Int)
    · simp only [Option.any_some, hover, decide_true, if_true, Option.filter_some]
      exact ⟨_, rfl, rfl, rfl, by simp, by simp [Stop.isOverdue]⟩
    · simp only [Option.any_some, hover, decide_false, Bool.false_eq_true, if_false,
        Option.filter_some]
      exact ⟨_, rfl, rfl, rfl, by simp, by simp⟩

theorem stop?_some {stop : Stop} (hstop : c.stop? h r = some stop) :
    r.killed = false ∧ match stop with
      | .cancelled => h.isCancelled c.plan.token = true
      | .overdue d => h.isCancelled c.plan.token = false ∧ r.deadline = some d ∧
          d < (h.machine.clock : Int) := by
  unfold stop? at hstop
  split at hstop
  · cases hstop
  next hkilled =>
  refine ⟨by simpa using hkilled, ?_⟩
  split at hstop
  · next hcancelled =>
    cases hstop
    exact hcancelled
  · next hwanted =>
    obtain ⟨d, hd, rfl⟩ := Option.map_eq_some_iff.mp hstop
    obtain ⟨hdeadline, hover⟩ := Option.filter_eq_some_iff.mp hd
    exact ⟨by simpa using hwanted, hdeadline, by simpa using hover⟩

/-- A child that is killed at a look was not killed before. -/
theorem Opening.Of.polled (hk : k.Of r) {r' : RunningStep} (hspawned : r'.spawned = r.spawned)
    (hdeadline : r'.deadline = r.deadline)
    (hkilled : r'.killed = (r.killed || (c.stop? h r).isSome))
    (htimedOut : r'.timedOut = (r.timedOut || (c.stop? h r).any Stop.isOverdue)) :
    ∃ k' : Opening, k'.Of r' ∧ k'.deeds = k.deeds ++
      (c.stop? h r).toList.map fun stop => .kill r.spawned.child (.stopped stop) := by
  cases hstop : c.stop? h r with
  | none =>
    rw [hstop] at hkilled htimedOut
    refine ⟨k, ⟨hk.spawned.trans hspawned.symm, hk.deadline.trans hdeadline.symm, ?_, hk.due, ?_⟩,
      by simp⟩
    · simpa using hkilled.trans (by rw [hk.killed]; simp)
    · simpa using htimedOut.trans (by rw [hk.timedOut]; simp)
  | some stop =>
    rw [hstop] at hkilled htimedOut
    obtain ⟨hfirst, hwhy⟩ := stop?_some hstop
    have hnone : k.stop = none := by
      have hsome := hk.killed
      rw [hfirst] at hsome
      simpa using hsome.symm
    refine ⟨{ k with stop := some stop },
      ⟨hk.spawned.trans hspawned.symm, hk.deadline.trans hdeadline.symm, ?_, ?_, ?_⟩, ?_⟩
    · simpa using hkilled
    · rintro d heq
      cases heq
      exact hk.deadline.trans hwhy.2.1
    · rw [htimedOut, hk.timedOut, hnone]
      simp
    · simp [deeds, hnone, hk.spawned]

theorem filter_pollDeeds (c : Chain) (h : Host) (r : RunningStep) :
    (c.pollDeeds h r).filter Deed.counts =
      (c.stop? h r).toList.map fun stop => .kill r.spawned.child (.stopped stop) := by
  unfold pollDeeds
  rcases c.stop? h r with _ | _ | _ <;> rfl

theorem fits_pollDeeds (htracked : r.spawned.child ∈ h.tracker.ofJob c.plan.job)
    (hlive : r.spawned.isLive h = true) :
    Trace.Fits c.plan (Deed.trace c.plan.job (c.pollDeeds h r) h) := by
  unfold pollDeeds
  cases hstop : c.stop? h r with
  | none => exact fun e he => by cases he
  | some stop =>
    obtain ⟨-, hwhy⟩ := stop?_some hstop
    refine List.forall_mem_cons.mpr ⟨?_, List.forall_mem_singleton.mpr ?_⟩
    · cases stop <;> trivial
    · cases stop with
      | cancelled => exact ⟨htracked, hlive, hwhy⟩
      | overdue d => exact ⟨htracked, hlive, hwhy.1, hwhy.2.2⟩

end Polling

section Ending

variable {p : ChainPlan} {h : Host} {r : RunningStep} {k : Opening}

theorem endStep_running (c : Chain) (h : Host) (r : RunningStep) :
    (c.endStep h r).running = none := by
  unfold endStep
  dsimp only
  split <;> rfl

theorem endStep_nextId (c : Chain) (h : Host) (r : RunningStep) :
    (c.endStep h r).host.machine.nextId = h.machine.nextId := by
  unfold endStep
  dsimp only
  split <;> rfl

theorem fits_endDeeds (htracked : r.spawned.child ∈ h.tracker.ofJob p.job)
    (hended : r.spawned.isLive h = false) :
    Trace.Fits p (Deed.trace p.job (endDeeds h r) h) := by
  have hextinct := h.killGroup_extinct r.spawned.child
  simp only [Trace.Fits, endDeeds, Deed.trace, List.forall_mem_cons]
  exact ⟨⟨htracked, hended⟩, ⟨htracked, hended⟩, trivial, ⟨htracked, hextinct⟩, hextinct,
    fun e he => by cases he⟩

/-- A course that has come to its end tells why its child was killed. -/
theorem Opening.Of.told (hk : k.Of r) (h : Host) : Course.Told ⟨k, report h r⟩ where
  due := hk.due
  timedOut := by
    rw [← any_isOverdue, ← hk.timedOut]
    rfl

end Ending

section Beginning

variable {p : ChainPlan} {h started : Host} {plan : SpawnPlan} {spawned : Spawned} {child : Nat}

theorem track_nextId (h : Host) (job : String) (child : Nat) :
    (h.track job child).machine.nextId = h.machine.nextId := by
  unfold Host.track
  dsimp only
  split <;> rfl

theorem deadline?_track (p : ChainPlan) (h : Host) (job : String) (child : Nat) :
    p.deadline? (h.track job child) = p.deadline? h := by
  unfold Host.track
  dsimp only
  split <;> rfl

theorem fits_listDeeds (hfresh : child ∉ h.tracker.children) :
    Trace.Fits p (Deed.trace p.job (listDeeds p.job child h.tracker.closed) h) := by
  unfold listDeeds
  refine List.forall_mem_cons.mpr ⟨hfresh, ?_⟩
  cases hclosed : h.tracker.closed with
  | false => exact fun e he => by cases he
  | true =>
    refine List.forall_mem_cons.mpr ⟨trivial, List.forall_mem_singleton.mpr ⟨?_, ?_⟩⟩
    · exact Tracker.mem_ofJob_add ..
    · exact (Tracker.closed_add ..).trans hclosed

theorem fits_startDeeds (hstart : plan.start h = .ok (started, spawned))
    (hfresh : spawned.child ∉ h.tracker.children) :
    Trace.Fits p (Deed.trace p.job (startDeeds p plan started spawned) h) := by
  simp only [startDeeds, Deed.trace, Deed.perform, hstart, Deed.trace_append,
    performAll_listDeeds]
  rw [← SpawnPlan.start_tracker hstart] at hfresh
  refine List.forall_mem_cons.mpr ⟨⟨_, hstart⟩, fits_append.mpr ⟨fits_listDeeds hfresh, ?_⟩⟩
  refine List.forall_mem_singleton.mpr ⟨?_, ?_⟩
  · rw [Host.track_tracker]
    exact Tracker.mem_ofJob_add ..
  · exact (deadline?_track ..).symm

theorem courses_startDeeds : (startDeeds p plan started spawned).filter Deed.counts =
    Opening.deeds ⟨plan, spawned, started.tracker.closed, p.deadline? started, none⟩ := by
  unfold startDeeds listDeeds Opening.deeds
  cases started.tracker.closed <;> rfl

end Beginning

end Chain

end SnippetRunner
