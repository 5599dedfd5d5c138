import SnippetRunner.Proofs.Execution.Closing
import SnippetRunner.Proofs.Execution.Steps

/-!
How chains use a tracker. A move of a chain lists the child that it has just started, takes off
the one whose end it found, or leaves the tracker alone, and all this under the name of its job.
A ledger of what was ever listed and taken off tells what a tracker lists.
-/
namespace SnippetRunner

namespace Tracker

inductive Change
  | list (job : String) (child : Nat)
  | unlist (job : String) (child : Nat)
  | close
  deriving DecidableEq, Repr

def after (t : Tracker) : Option Change → Tracker
  | none => t
  | some (.list job child) => t.add job child
  | some (.unlist job child) => t.remove job child
  | some .close => t.close

structure Ledger where
  listed : List (String × Nat) := []
  removed : List (String × Nat) := []
  deriving DecidableEq, Repr

/-- A change is written down; taking off what is not listed comes to nothing. -/
def Ledger.enter (l : Ledger) (t : Tracker) : Option Change → Ledger
  | some (.list job child) => { l with listed := (job, child) :: l.listed }
  | some (.unlist job child) =>
    if child ∈ t.ofJob job then { l with removed := (job, child) :: l.removed } else l
  | some .close => l
  | none => l

/-- A tracker lists each child under a job as often as it was listed and not taken off, each job
once, and no job without children. -/
structure Tallies (t : Tracker) (l : Ledger) : Prop where
  distinct : t.Distinct
  inhabited : ∀ e ∈ t.jobs, e.2 ≠ []
  counted : ∀ job child,
    (t.ofJob job).count child + l.removed.count (job, child) = l.listed.count (job, child)

variable {t : Tracker} {l : Ledger} {job : String} {child : Nat}

theorem tallies_empty : Tallies .empty {} where
  distinct := .empty
  inhabited e he := by cases he
  counted job child := rfl

theorem inhabited_add (h : ∀ e ∈ t.jobs, e.2 ≠ []) : ∀ e ∈ (t.add job child).jobs, e.2 ≠ [] := by
  intro e he
  unfold add at he
  split at he
  · obtain ⟨old, hold, rfl⟩ := List.mem_map.mp he
    split
    · simp
    · exact h old hold
  · rcases List.mem_append.mp he with hold | hnew
    · exact h e hold
    · simp [List.mem_singleton.mp hnew]

theorem inhabited_remove (h : ∀ e ∈ t.jobs, e.2 ≠ []) :
    ∀ e ∈ (t.remove job child).jobs, e.2 ≠ [] := by
  intro e he
  obtain ⟨hmem, hkept⟩ := List.mem_filter.mp he
  obtain ⟨old, hold, rfl⟩ := List.mem_map.mp hmem
  by_cases hname : old.1 == job
  · rw [if_pos hname] at hkept ⊢
    simpa using hkept
  · rw [if_neg hname]
    exact h old hold

theorem Tallies.enter (h : Tallies t l) (change : Option Change) :
    Tallies (t.after change) (l.enter t change) := by
  rcases change with _ | ⟨job, child⟩ | ⟨job, child⟩ | _
  · exact h
  · refine ⟨h.distinct.add job child, inhabited_add h.inhabited, fun other n => ?_⟩
    have hcounted := h.counted other n
    simp only [after, Ledger.enter, count_ofJob_add, List.count_cons, beq_iff_eq]
    omega
  · refine ⟨h.distinct.remove job child, inhabited_remove h.inhabited, fun other n => ?_⟩
    have hcounted := h.counted other n
    have hremoved := h.distinct.count_ofJob_remove job child other n
    by_cases hmem : child ∈ t.ofJob job
    · simp only [after, Ledger.enter, hmem, true_and, if_true, List.count_cons,
        beq_iff_eq] at hremoved ⊢
      omega
    · simp only [after, Ledger.enter, hmem, false_and, if_false] at hremoved ⊢
      omega
  · exact ⟨h.distinct, h.inhabited, h.counted⟩

/-- What is listed was listed at some time. -/
theorem Tallies.listed (h : Tallies t l) (hmem : child ∈ t.ofJob job) :
    (job, child) ∈ l.listed := by
  have hcounted := h.counted job child
  have hpos := List.count_pos_iff.mpr hmem
  exact List.count_pos_iff.mp (by omega)

theorem Ledger.listed_mono (l : Ledger) (t : Tracker) (change : Option Change) :
    l.listed ⊆ (l.enter t change).listed := by
  rcases change with _ | ⟨job, child⟩ | ⟨job, child⟩ | _
  · exact List.Subset.refl _
  · exact List.subset_cons_self ..
  · simp only [enter]
    split <;> exact List.Subset.refl _
  · exact List.Subset.refl _

theorem closed_after (change : Option Tracker.Change) (h : t.closed = true) :
    (t.after change).closed = true := by
  rcases change with _ | ⟨job, child⟩ | ⟨job, child⟩ | _
  · exact h
  · exact (closed_add ..).trans h
  · exact h
  · rfl

end Tracker

namespace Host

variable (h : Host) (job : String) (child : Nat)

@[simp] theorem track_tracker : (h.track job child).tracker = h.tracker.add job child := by
  unfold track
  dsimp only
  split <;> rfl

end Host

namespace Chain

variable {c c' : Chain} {h h' : Host} {r : RunningStep}

def change? (c : Chain) (h : Host) : Option Tracker.Change :=
  match c.running with
  | some r => if r.spawned.isLive h then none else some (.unlist c.plan.job r.spawned.child)
  | none =>
    match c.step h with
    | .moved _ c' => c'.running.map fun r => .list c.plan.job r.spawned.child
    | _ => none

theorem poll_tracker (c : Chain) (h : Host) (r : RunningStep) :
    (c.poll h r).host.tracker = h.tracker := by
  unfold poll
  dsimp only
  split
  · rfl
  split
  · rfl
  split <;> rfl

theorem endStep_tracker (c : Chain) (h : Host) (r : RunningStep) :
    (c.endStep h r).host.tracker = h.tracker.remove c.plan.job r.spawned.child := by
  unfold endStep
  dsimp only
  split <;> rfl

/-- Beginning a step lists its child, if that was started. -/
theorem beginStep_tracker (c : Chain) (h : Host) (argv : List String) (rest : List (List String)) :
    (∃ h' c' r, c.beginStep h argv rest = .moved h' c' ∧ c'.running = some r ∧
      h'.tracker = h.tracker.add c.plan.job r.spawned.child) ∨
    ∃ h' failure, c.beginStep h argv rest = .failed h' failure ∧ h'.tracker = h.tracker := by
  unfold beginStep
  dsimp only
  split
  · exact .inr ⟨_, _, rfl, rfl⟩
  · next hstart =>
    obtain ⟨machine, rfl⟩ := SpawnPlan.start_host hstart
    exact .inl ⟨_, _, _, rfl, rfl, Host.track_tracker ..⟩

theorem step_tracker (c : Chain) (h : Host) :
    (c.step h).host.tracker = h.tracker.after (c.change? h) := by
  unfold change?
  cases hrunning : c.running with
  | some r =>
    simp only [step, hrunning]
    cases hlive : r.spawned.isLive h with
    | false => exact endStep_tracker c h r
    | true =>
      simp only [Bool.not_true, Bool.false_eq_true, if_false, if_true]
      split
      · rfl
      · exact poll_tracker c h r
  | none =>
    simp only [step, hrunning]
    cases c.left with
    | nil => rfl
    | cons argv rest =>
      dsimp only
      split
      · rfl
      rcases beginStep_tracker c h argv rest with
        ⟨h', c', r, hmoved, hnow, htracker⟩ | ⟨h', failure, hfailed, htracker⟩
      · simp only [hmoved, hnow]
        exact htracker
      · simp only [hfailed]
        exact htracker

/-- A look at a child that is still running keeps it. -/
theorem poll_child (hpoll : c.poll h r = .moved h' c') :
    ∃ r', c'.running = some r' ∧ r'.spawned = r.spawned := by
  unfold poll at hpoll
  dsimp only at hpoll
  split at hpoll
  · cases hpoll
    exact ⟨_, rfl, rfl⟩
  split at hpoll
  · cases hpoll
    exact ⟨_, rfl, rfl⟩
  split at hpoll
  all_goals
    cases hpoll
    exact ⟨_, rfl, rfl⟩

/-- A chain that goes on after a step has let its child go. -/
theorem endStep_child (hend : c.endStep h r = .moved h' c') : c'.running = none := by
  unfold endStep at hend
  dsimp only at hend
  split at hend
  · cases hend
  · cases hend
    rfl

/-- The child of a chain that goes on is the one it had, or was listed just now. -/
theorem step_child {after : RunningStep} (hstep : c.step h = .moved h' c')
    (hafter : c'.running = some after) :
    (∃ before, c.running = some before ∧ after.spawned = before.spawned) ∨
      c.change? h = some (.list c.plan.job after.spawned.child) := by
  cases hbefore : c.running with
  | none =>
    right
    simp only [change?, hbefore, hstep, hafter]
    rfl
  | some before =>
    left
    refine ⟨before, rfl, ?_⟩
    simp only [step, hbefore] at hstep
    split at hstep
    · rw [endStep_child hstep] at hafter
      cases hafter
    split at hstep
    · cases hstep
    · obtain ⟨after', hrunning, hsame⟩ := poll_child hstep
      rw [hrunning] at hafter
      cases hafter
      exact hsame

end Chain

end SnippetRunner
