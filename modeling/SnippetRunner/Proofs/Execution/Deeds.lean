import SnippetRunner.Proofs.Execution.Tracking

/-!
A move of a chain, taken apart. What a move does to the host is a list of deeds, each of them
done on what the one before it left: a child is started, listed and waited for, its group is
killed, its end is found, and it is taken off the list. The order of the deeds is what tells
whether a child can be left behind, so they are kept together with the hosts they were done on.
-/
namespace SnippetRunner

open Host

def Host.lives (h : Host) (child : Nat) : Bool := (h.machine.find? child).any Machine.isLive

def Host.Extinct (h : Host) (group : Nat) : Prop :=
  ∀ c ∈ h.machine.children, c.group = group → Machine.isLive c = false

theorem Host.killGroup_extinct (h : Host) (child : Nat) : (h.killGroup child).Extinct child := by
  intro c hc hgroup
  obtain ⟨old, -, rfl⟩ := List.mem_map.mp hc
  by_cases hkilled : old.group == child && old.ending.isNone
  · rw [if_pos hkilled]
    rfl
  · rw [if_neg hkilled] at hgroup ⊢
    rw [hgroup, beq_self_eq_true, Bool.true_and, Bool.not_eq_true] at hkilled
    exact hkilled

def ChainPlan.deadline? (p : ChainPlan) (h : Host) : Option Int :=
  let limit := p.engine.timeLimit.milliseconds
  if limit == 0 then none else some ((h.machine.clock : Int) + limit)

namespace Chain

inductive Stop
  | cancelled
  | overdue (deadline : Int)
  deriving DecidableEq, Repr

inductive Cause
  /-- The tracker was closed when the child was listed. -/
  | refused
  | stopped (stop : Stop)
  /-- The child has ended; this is for what it may have left behind. -/
  | leftover
  deriving DecidableEq, Repr

inductive Deed
  | note (entry : LogEntry)
  | start (plan : SpawnPlan) (spawned : Spawned)
  | list (child : Nat)
  /-- From now on the end of the child is waited for. -/
  | await (child : Nat) (deadline : Option Int)
  | kill (child : Nat) (cause : Cause)
  /-- The end of the child is found. -/
  | reap (child : Nat)
  | tell (shown : StepReport)
  | unlist (child : Nat)
  | release (spawned : Spawned)

abbrev Trace := List (Host × Deed)

namespace Deed

variable (job : String)

def perform : Deed → Host → Host
  | note e, h => h.note e.source e.level e.text
  | start plan _, h =>
    match plan.start h with
    | .ok (started, _) => started
    | .error _ => h
  | list child, h => { h with tracker := h.tracker.add job child }
  | kill child _, h => h.killGroup child
  | unlist child, h => h.untrack job child
  | release spawned, h => spawned.release h
  | _, h => h

def performAll : List Deed → Host → Host
  | [], h => h
  | d :: rest, h => performAll rest (d.perform job h)

def trace : List Deed → Host → Trace
  | [], _ => []
  | d :: rest, h => (h, d) :: trace rest (d.perform job h)

theorem performAll_append (ds ds' : List Deed) (h : Host) :
    performAll job (ds ++ ds') h = performAll job ds' (performAll job ds h) := by
  induction ds generalizing h with
  | nil => rfl
  | cons d rest ih => exact ih _

theorem trace_append (ds ds' : List Deed) (h : Host) :
    trace job (ds ++ ds') h = trace job ds h ++ trace job ds' (performAll job ds h) := by
  induction ds generalizing h with
  | nil => rfl
  | cons d rest ih => exact congrArg _ (ih _)

theorem map_trace (ds : List Deed) (h : Host) : (trace job ds h).map (·.2) = ds := by
  induction ds generalizing h with
  | nil => rfl
  | cons d rest ih => exact congrArg _ (ih _)

end Deed

section Moves

variable (c : Chain) (h : Host) (r : RunningStep)

def noteOf (level : LogLevel) (text : String) : Deed := .note ⟨logName, level, text⟩

def listDeeds (job : String) (child : Nat) (closed : Bool) : List Deed :=
  .list child ::
    if closed then
      [.note ⟨"snipexec.executor.process", .warning,
        s!"Process group {child} of job {job} started after shutdown; killing"⟩,
       .kill child .refused]
    else []

def startDeeds (p : ChainPlan) (plan : SpawnPlan) (started : Host) (spawned : Spawned) :
    List Deed :=
  .start plan spawned :: (listDeeds p.job spawned.child started.tracker.closed ++
    [.await spawned.child (p.deadline? started)])

def beginDeeds (argv : List String) (rest : List (List String)) : List Deed :=
  let line := String.intercalate " " argv
  let text := s!"[{c.plan.job}] step {c.begun}: {line}"
  let noted := h.note logName .info text
  let plan := c.plan.spawnPlan noted argv rest.isEmpty
  noteOf .info text ::
    match plan.start noted with
    | .error _ => []
    | .ok (started, spawned) => startDeeds c.plan plan started spawned

def stop? : Option Stop :=
  if r.killed then none
  else if h.isCancelled c.plan.token then some .cancelled
  else (r.deadline.filter fun d => decide (d < (h.machine.clock : Int))).map .overdue

def stopNote (child : Nat) : Stop → Deed
  | .cancelled => noteOf .info s!"[{c.plan.job}] cancelled, killing {child}"
  | .overdue _ =>
    noteOf .warning s!"[{c.plan.job}] timed out after {c.plan.engine.timeLimit.text}s"

def pollDeeds : List Deed :=
  match c.stop? h r with
  | none => []
  | some stop => [c.stopNote r.spawned.child stop, .kill r.spawned.child (.stopped stop)]

def endDeeds : List Deed :=
  let child := r.spawned.child
  [.reap child, .kill child .leftover, .tell (report (h.killGroup child) r), .unlist child,
   .release r.spawned]

def deeds : List Deed :=
  match c.running with
  | some r =>
    if !r.spawned.isLive h then endDeeds h r
    else if h.machine.clock < r.pollAt then []
    else c.pollDeeds h r
  | none =>
    match c.left with
    | [] => []
    | argv :: rest => if h.isCancelled c.plan.token then [] else c.beginDeeds h argv rest

end Moves

section Fidelity

variable (c : Chain) (h : Host) (r : RunningStep)

theorem performAll_listDeeds (job : String) (child : Nat) :
    Deed.performAll job (listDeeds job child h.tracker.closed) h = h.track job child := by
  unfold listDeeds track
  dsimp only
  rw [Tracker.closed_add]
  cases h.tracker.closed <;> rfl

theorem performAll_startDeeds {p : ChainPlan} {plan : SpawnPlan} {h started : Host}
    {spawned : Spawned} (hstart : plan.start h = .ok (started, spawned)) :
    Deed.performAll p.job (startDeeds p plan started spawned) h =
      started.track p.job spawned.child := by
  simp only [startDeeds, Deed.performAll, Deed.perform, hstart, Deed.performAll_append,
    performAll_listDeeds]

theorem performAll_beginDeeds (argv : List String) (rest : List (List String)) :
    Deed.performAll c.plan.job (c.beginDeeds h argv rest) h = (c.beginStep h argv rest).host := by
  unfold beginDeeds beginStep
  dsimp only [Deed.performAll, noteOf, Deed.perform]
  generalize hstart : SpawnPlan.start _ _ = result
  rcases result with _ | ⟨started, spawned⟩
  · rfl
  · exact performAll_startDeeds hstart

theorem performAll_pollDeeds :
    Deed.performAll c.plan.job (c.pollDeeds h r) h = (c.poll h r).host := by
  unfold pollDeeds stop? poll
  by_cases hkilled : r.killed = true
  · simp only [hkilled, if_true]
    rfl
  by_cases hcancelled : h.isCancelled c.plan.token = true
  · simp only [hkilled, hcancelled, Bool.false_eq_true, if_true, if_false]
    rfl
  simp only [hkilled, hcancelled, Bool.false_eq_true, if_false]
  cases r.deadline with
  | none => rfl
  | some d =>
    by_cases hover : d < (h.machine.clock : Int)
    · simp only [Option.filter_some, Option.any_some, hover, decide_true, if_true]
      rfl
    · simp only [Option.filter_some, Option.any_some, hover, decide_false, Bool.false_eq_true,
        if_false]
      rfl

theorem performAll_endDeeds :
    Deed.performAll c.plan.job (endDeeds h r) h = (c.endStep h r).host := by
  unfold endStep
  dsimp only
  split <;> rfl

/-- The deeds of a move are all that it does. -/
theorem performAll_deeds : Deed.performAll c.plan.job (c.deeds h) h = (c.step h).host := by
  unfold deeds step
  cases c.running with
  | some r =>
    dsimp only
    split
    · exact performAll_endDeeds ..
    split
    · rfl
    · exact performAll_pollDeeds ..
  | none =>
    cases c.left with
    | nil => rfl
    | cons argv rest =>
      dsimp only
      split
      · rfl
      · exact performAll_beginDeeds ..

end Fidelity

end Chain

end SnippetRunner
