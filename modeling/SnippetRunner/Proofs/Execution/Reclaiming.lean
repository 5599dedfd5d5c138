import SnippetRunner.Proofs.Execution.Courses

/-!
How a chain gets rid of its children. Whatever else goes on, and wherever the chain stops, all
children but that of the step that runs have come to the end of their course, so that a chain
which is over leaves the tracker as it was.
-/
namespace SnippetRunner

namespace Chain

/-- No job is listed without children, and all numbers that are listed were given. -/
structure Orderly (h : Host) : Prop where
  inhabited : ∀ e ∈ h.tracker.jobs, e.2 ≠ []
  numbered : ∀ child ∈ h.tracker.children, child < h.machine.nextId

theorem Orderly.of_unused {h : Host} (hunused : h.tracker.jobs = []) : Orderly h where
  inhabited e he := by
    rw [hunused] at he
    cases he
  numbered child hchild := by
    rw [Tracker.children, hunused] at hchild
    cases hchild

section Invariant

def expected (p : ChainPlan) (before : Tracker) : Option RunningStep → Tracker
  | none => before
  | some r => before.add p.job r.spawned.child

/-- What holds of a chain that was started on a host, by the host that it has now, the step that
runs and what was done. -/
structure Sound (p : ChainPlan) (before h : Host) (running : Option RunningStep) (t : Trace) :
    Prop where
  jobs : h.tracker.jobs = (expected p before.tracker running).jobs
  fresh : ∀ r, running = some r → r.spawned.child ∉ before.tracker.children
  numbered : ∀ child ∈ h.tracker.children, child < h.machine.nextId
  fits : t.Fits p
  /-- All courses but that of the step that runs have come to their end. -/
  courses : ∃ (ended : List Course) (opening : Option Opening),
    t.courses = ended.flatMap Course.deeds ++ opening.toList.flatMap Opening.deeds ∧
    (∀ k ∈ ended, k.Told) ∧ Option.Rel Opening.Of opening running

variable {p : ChainPlan} {before h h' started : Host} {running : Option RunningStep}
  {r : RunningStep} {t : Trace} {c : Chain} {plan : SpawnPlan} {spawned : Spawned}

theorem sound_start (hbefore : Orderly before) : Sound p before before none [] where
  jobs := rfl
  fresh r hr := by cases hr
  numbered := hbefore.numbered
  fits e he := by cases he
  courses := ⟨[], none, rfl, by simp, .none⟩

namespace Sound

/-- The child of the step that runs is tracked. -/
theorem tracked (hs : Sound p before h (some r) t) :
    r.spawned.child ∈ h.tracker.ofJob p.job := by
  rw [Tracker.ofJob_congr hs.jobs]
  exact Tracker.mem_ofJob_add ..

theorem aside (hs : Sound p before h running t) (hleaves : Leaves h h') :
    Sound p before h' running t where
  jobs := hleaves.jobs.trans hs.jobs
  fresh := hs.fresh
  numbered child hchild := by
    rw [Tracker.children_congr hleaves.jobs] at hchild
    exact Nat.lt_of_lt_of_le (hs.numbered child hchild) hleaves.numbers
  fits := hs.fits
  courses := hs.courses

/-- Nothing was done that counts. -/
theorem idle (hs : Sound p before h running t) {t' : Trace} (hfits : t'.Fits p)
    (hcourses : t'.courses = []) : Sound p before h running (t ++ t') where
  jobs := hs.jobs
  fresh := hs.fresh
  numbered := hs.numbered
  fits := fits_append.mpr ⟨hs.fits, hfits⟩
  courses := by
    have happend : Trace.courses (t ++ t') = t.courses := by
      rw [Trace.courses, List.map_append, List.filter_append]
      exact (congrArg _ hcourses).trans (List.append_nil _)
    rw [happend]
    exact hs.courses

theorem polls (hs : Sound p before h (some r) t) (hplan : c.plan = p)
    (hlive : r.spawned.isLive h = true) :
    Sound p before (c.poll h r).host (c.poll h r).running
      (t ++ Deed.trace p.job (c.pollDeeds h r) h) := by
  subst hplan
  obtain ⟨r', hrunning, hspawned, hdeadline, hkilled, htimedOut⟩ := poll_running c h r
  have hleft := hs.aside (poll_leaves c h r)
  obtain ⟨ended, _, hcourses, htold, hk⟩ := hs.courses
  cases hk with
  | some hk =>
    obtain ⟨k', hk', hdeeds⟩ := hk.polled hspawned hdeadline hkilled htimedOut
    rw [hrunning]
    refine ⟨?_, ?_, hleft.numbered, fits_append.mpr ⟨hs.fits, fits_pollDeeds hs.tracked hlive⟩,
      ended, some k', ?_, htold, .some hk'⟩
    · rw [hleft.jobs, expected, expected, hspawned]
    · rintro _ ⟨⟩
      rw [hspawned]
      exact hs.fresh r rfl
    · rw [courses_append, hcourses, filter_pollDeeds]
      simp [hdeeds]

theorem ends (hs : Sound p before h (some r) t) (hbefore : Orderly before)
    (hplan : c.plan = p) (hended : r.spawned.isLive h = false) :
    Sound p before (c.endStep h r).host (c.endStep h r).running
      (t ++ Deed.trace p.job (endDeeds h r) h) := by
  subst hplan
  -- The child was not listed before its step, so taking it off gives back what was listed then.
  have hjobs : (c.endStep h r).host.tracker.jobs = before.tracker.jobs := by
    rw [endStep_tracker, Tracker.jobs_remove_congr hs.jobs]
    exact Tracker.jobs_remove_add hbefore.inhabited (hs.fresh r rfl)
  obtain ⟨ended, _, hcourses, htold, hk⟩ := hs.courses
  cases hk with
  | @some k _ hk =>
    rw [endStep_running]
    refine ⟨hjobs, fun _ h => (by cases h), ?_,
      fits_append.mpr ⟨hs.fits, fits_endDeeds hs.tracked hended⟩,
      ended ++ [⟨k, report (h.killGroup r.spawned.child) r⟩], none, ?_, ?_, .none⟩
    · rw [endStep_tracker, endStep_nextId]
      exact fun child hchild => hs.numbered child (Tracker.mem_children_remove hchild)
    · rw [courses_append, hcourses]
      simp [endDeeds, Deed.counts, Course.deeds, hk.spawned]
    · exact List.forall_mem_append.mpr ⟨htold, List.forall_mem_singleton.mpr (hk.told _)⟩

theorem starts (hs : Sound p before h none t)
    (hstart : plan.start h = .ok (started, spawned)) (pollAt : Nat) :
    Sound p before (started.track p.job spawned.child)
      (some { spawned, deadline := p.deadline? started, pollAt })
      (t ++ Deed.trace p.job (startDeeds p plan started spawned) h) := by
  obtain ⟨hnew, hgiven⟩ := SpawnPlan.start_child hstart
  -- All that are listed have numbers that were given, and that of the new child was not.
  have hfresh : spawned.child ∉ h.tracker.children := fun hmem =>
    Nat.not_lt.mpr hnew (hs.numbered _ hmem)
  have htracker := SpawnPlan.start_tracker hstart
  obtain ⟨ended, _, hcourses, htold, hk⟩ := hs.courses
  cases hk with
  | none =>
    refine ⟨?_, ?_, ?_, fits_append.mpr ⟨hs.fits, fits_startDeeds hstart hfresh⟩,
      ended, some ⟨plan, spawned, started.tracker.closed, p.deadline? started, none⟩, ?_, htold,
      .some ⟨rfl, rfl, rfl, fun _ h => (by cases h), rfl⟩⟩
    · rw [Host.track_tracker, htracker]
      exact Tracker.jobs_add_congr hs.jobs ..
    · rintro _ ⟨⟩
      rwa [Tracker.children_congr hs.jobs] at hfresh
    · intro child hchild
      rw [Host.track_tracker, htracker] at hchild
      rw [track_nextId]
      rcases Tracker.mem_children_add hchild with hold | rfl
      · have hless := hs.numbered child hold
        omega
      · exact hgiven
    · rw [courses_append, hcourses, courses_startDeeds]
      simp

theorem noted (hs : Sound p before h none t) (level : LogLevel) (text : String) :
    Sound p before (h.note logName level text) none (t ++ [(h, noteOf level text)]) := by
  have hfits : Trace.Fits p [(h, noteOf level text)] := List.forall_mem_singleton.mpr trivial
  exact (hs.idle hfits rfl).aside ⟨rfl, Nat.le_refl _⟩

theorem begins (hs : Sound p before h none t) (hplan : c.plan = p)
    (argv : List String) (rest : List (List String)) :
    Sound p before (c.beginStep h argv rest).host (c.beginStep h argv rest).running
      (t ++ Deed.trace p.job (c.beginDeeds h argv rest) h) := by
  subst hplan
  unfold beginStep beginDeeds
  dsimp only
  rw [Deed.trace, List.append_cons]
  -- Both the move and its deeds depend on whether the child starts.
  generalize hstart : SpawnPlan.start _ _ = result
  rcases result with _ | ⟨started, spawned⟩
  · simp only [Deed.trace, List.append_nil]
    exact hs.noted ..
  · exact (hs.noted ..).starts hstart _

end Sound

end Invariant

structure Handled where
  host : Host
  chain : Chain
  done : Trace := []

namespace Handled

def start (p : ChainPlan) (h : Host) : Handled := { host := h, chain := p.start h }

variable (s : Handled)

def trace : Trace := s.done ++ Deed.trace s.chain.plan.job (s.chain.deeds s.host) s.host

inductive Step : Handled → Prop
  | aside (h : Host) : Leaves s.host h → Step { s with host := h }
  | move (h : Host) (c : Chain) : s.chain.step s.host = .moved h c → Step ⟨h, c, s.trace⟩

/-- Any number of moves of a chain with anything in between. -/
abbrev Run : Handled → Handled → Prop := Relation.ReflTransGen Step

/-- The next move is the last one, whether it gives an outcome or a failure. -/
def Ends (h : Host) : Prop :=
  (∃ o, s.chain.step s.host = .done h o) ∨ ∃ f, s.chain.step s.host = .failed h f

structure Sound (p : ChainPlan) (before : Host) : Prop where
  plan : s.chain.plan = p
  leads : s.done.Leads p.job before s.host
  sound : Chain.Sound p before s.host s.chain.running s.done

variable {s} {s' : Handled} {p : ChainPlan} {before h h' : Host}

theorem step_plan {c c' : Chain} (hstep : c.step h = .moved h' c') : c'.plan = c.plan := by
  cases step_moves hstep <;> rfl

/-- The next move keeps what holds, also if it is the last one. -/
theorem Sound.next (hs : Sound s p before) (hbefore : Orderly before) :
    Chain.Sound p before (s.chain.step s.host).host (s.chain.step s.host).running s.trace := by
  obtain ⟨hplan, -, hs⟩ := hs
  unfold trace deeds step
  rw [hplan]
  cases hrunning : s.chain.running with
  | some r =>
    rw [hrunning] at hs
    dsimp only
    cases hlive : r.spawned.isLive s.host with
    | false => exact hs.ends hbefore hplan hlive
    | true =>
      simp only [Bool.not_true, Bool.false_eq_true, if_false]
      split
      · simp only [Deed.trace, List.append_nil]
        show Chain.Sound p before s.host s.chain.running s.done
        rw [hrunning]
        exact hs
      · exact hs.polls hplan hlive
  | none =>
    rw [hrunning] at hs
    cases s.chain.left with
    | nil => exact hs.idle (fun e he => by cases he) rfl
    | cons argv rest =>
      dsimp only
      split
      · exact hs.idle (fun e he => by cases he) rfl
      · exact hs.begins hplan argv rest

/-- What the next move does leads to the host that it gives. -/
theorem Sound.leads_next (hs : Sound s p before) :
    s.trace.Leads p.job before (s.chain.step s.host).host := by
  have hmove := leads_trace s.chain.plan.job (s.chain.deeds s.host) s.host
  rw [performAll_deeds] at hmove
  unfold trace
  rw [hs.plan] at hmove ⊢
  exact leads_append hs.leads hmove

theorem Step.sound (hstep : Step s s') (hbefore : Orderly before) (hs : Sound s p before) :
    Sound s' p before := by
  cases hstep with
  | aside h hleaves =>
    have hleads : Trace.Leads p.job (s.done ++ []) before h := leads_append hs.leads hleaves
    rw [List.append_nil] at hleads
    exact ⟨hs.plan, hleads, hs.sound.aside hleaves⟩
  | move h c hmove =>
    have hleads := hs.leads_next
    have hnext := hs.next hbefore
    rw [hmove] at hleads hnext
    exact ⟨(step_plan hmove).trans hs.plan, hleads, hnext⟩

theorem Run.sound (hrun : Run (start p before) s) (hbefore : Orderly before) :
    Sound s p before := by
  induction hrun with
  | refl => exact ⟨rfl, .refl before, sound_start hbefore⟩
  | tail _ hstep ih => exact hstep.sound hbefore ih

/-- What a chain that is over has left: the tracker lists what it listed before, and all that was
done on the way were whole courses of children. The next chain can be started on what is left. -/
structure Reclaimed (p : ChainPlan) (before h : Host) (t : Trace) : Prop where
  jobs : h.tracker.jobs = before.tracker.jobs
  orderly : Orderly h
  leads : t.Leads p.job before h
  fits : t.Fits p
  courses : ∃ ended : List Course, t.courses = ended.flatMap Course.deeds ∧ ∀ k ∈ ended, k.Told

theorem Sound.reclaimed (hs : Sound s p before) (hbefore : Orderly before) (hends : s.Ends h) :
    Reclaimed p before h s.trace := by
  have hleads := hs.leads_next
  have hnext := hs.next hbefore
  have hover : (s.chain.step s.host).host = h ∧ (s.chain.step s.host).running = none := by
    rcases hends with ⟨o, hdone⟩ | ⟨f, hfailed⟩
    · rw [hdone]
      exact ⟨rfl, rfl⟩
    · rw [hfailed]
      exact ⟨rfl, rfl⟩
  rw [hover.1] at hleads
  rw [hover.1, hover.2] at hnext
  have hinhabited : ∀ e ∈ h.tracker.jobs, e.2 ≠ [] := hnext.jobs ▸ hbefore.inhabited
  obtain ⟨ended, _, hcourses, htold, hk⟩ := hnext.courses
  cases hk with
  | none =>
    exact ⟨hnext.jobs, ⟨hinhabited, hnext.numbered⟩, hleads, hnext.fits, ended,
      by simpa using hcourses, htold⟩

/-- No child is left behind by a chain. Whatever its steps do and whatever else happens, a child
whose step runs is the only one that the tracker lists beyond those it listed before, and once the
chain has come to an outcome or to a failure the tracker lists what it listed before. Each child
that was started has gone through its whole course then: it was listed, waited for, killed at most
once before its end was found, told to have run out of time exactly if that was for its deadline,
and its group was killed after its end and before it was taken off. -/
theorem run_reclaims (hbefore : Orderly before) (hrun : Run (start p before) s) :
    (∀ r, s.chain.running = some r →
      s.host.tracker.jobs = (before.tracker.add p.job r.spawned.child).jobs ∧
        r.spawned.child ∉ before.tracker.children ∧
        r.spawned.child ∈ s.host.tracker.ofJob p.job) ∧
    ∀ h, s.Ends h → Reclaimed p before h s.trace := by
  have hs := hrun.sound hbefore
  refine ⟨fun r hrunning => ?_, fun h hends => hs.reclaimed hbefore hends⟩
  have hsound := hs.sound
  rw [hrunning] at hsound
  exact ⟨hsound.jobs, hsound.fresh r rfl, hsound.tracked⟩

/-- Driving a chain by timers is a run of it: the last move is that of the chain, or the moves
were used up. -/
theorem runFor_run {fuel : Nat} {timers : Timers} {result : Except Failure Outcome}
    (hdriven : runFor fuel s.chain s.host timers = (h', result)) :
    ∃ s', Run s s' ∧ (s'.Ends h' ∨
      h' = s'.host ∧ result = .ok (s'.chain.outcome s'.host .cancelled)) := by
  induction fuel generalizing s timers with
  | zero =>
    cases hdriven
    exact ⟨s, .refl, .inr ⟨rfl, rfl⟩⟩
  | succ fuel ih =>
    have hrung := Step.aside (s := s) _ (ring_leaves s.host timers)
    unfold runFor at hdriven
    dsimp only at hdriven
    split at hdriven
    · next hstep =>
      cases hdriven
      exact ⟨_, .single hrung, .inl (.inl ⟨_, hstep⟩)⟩
    · next hstep =>
      cases hdriven
      exact ⟨_, .single hrung, .inl (.inr ⟨_, hstep⟩)⟩
    · next hstep =>
      have hmove := Step.move (s := { s with host := (ring s.host timers).1 }) _ _ hstep
      obtain ⟨s', hrun, hs'⟩ := ih (s := ⟨_, _, _⟩) hdriven
      exact ⟨s', .head hrung (.head hmove hrun), hs'⟩
    · next until_ hstep =>
      obtain ⟨rfl, rfl, -⟩ := step_waits hstep
      let passed := (ring s.host timers).1.pass s.chain.awaited
        (nextTime until_ (ring s.host timers).2)
      have hpass : Step { s with host := (ring s.host timers).1 } { s with host := passed } :=
        .aside passed (pass_leaves ..)
      obtain ⟨s', hrun, hs'⟩ := ih (s := { s with host := passed }) hdriven
      exact ⟨s', .head hrung (.head hpass hrun), hs'⟩

open Watched in
/-- A chain that fails at its second step leaves nothing of either one. -/
theorem run_reclaims_twoSteps : Orderly toolHost ∧
    ∃ s h, Run (start twoSteps toolHost) s ∧ s.Ends h ∧ Reclaimed twoSteps toolHost h s.trace := by
  have horderly : Orderly toolHost := .of_unused rfl
  have hdriven : runFor 8 (twoSteps.start toolHost) toolHost [] = (_, .ok _) :=
    Prod.ext rfl runFor_twoSteps
  obtain ⟨s, hrun, hends | ⟨-, hspent⟩⟩ := runFor_run (s := start twoSteps toolHost) hdriven
  · exact ⟨horderly, s, _, hrun, hends, (run_reclaims horderly hrun).2 _ hends⟩
  · have hstatus := congrArg Outcome.status (Except.ok.inj hspent)
    cases hstatus

end Handled

end Chain

end SnippetRunner
