import SnippetRunner.Proofs.Execution.Courses
import SnippetRunner.Proofs.Execution.Touching

/-!
How a chain winds down. The child of a step leads a group of its own and is on the tracker as long
as the step runs, so that killing all that a tracker lists ends it, whatever the machine does in
between. Once the tracker is closed, the child of any further step is killed before it has done
anything, and its code ends the chain.
-/
namespace SnippetRunner

open Machine Success

def Child.Heads (k : Nat) (place : Nat × Nat) : Prop := place.1 = k → place.2 = k

variable {P : Nat × Nat → Prop} {h h' : Host} {k : Nat}

/-- What sends requests does nothing to children. -/
theorem Sends.onward {requests : List HttpRequest} (hsends : Sends requests h h') :
    Onward P h.machine h'.machine :=
  onward_of_children hsends.children (Nat.le_of_eq hsends.nextId.symm)

namespace Host

/-- A child that leads its group does not outlive it. -/
theorem lives_of_extinct (hheads : h.machine.Placed (Child.Heads k)) (hextinct : h.Extinct k) :
    h.lives k = false := by
  unfold lives
  cases hfound : h.machine.find? k with
  | none => rfl
  | some c =>
    have hid : c.id = k := beq_iff_eq.mp (List.find?_some (p := fun c : Child => c.id == k) hfound)
    exact hextinct c (List.mem_of_find?_eq_some hfound) (place_of_find hheads hfound hid)

theorem extinct_killGroup (hextinct : h.Extinct k) (child : Nat) :
    (h.killGroup child).Extinct k := by
  intro c hc hgroup
  obtain ⟨old, hold, rfl⟩ := List.mem_map.mp hc
  by_cases hkilled : old.group == child && old.ending.isNone
  · rw [if_pos hkilled]
    rfl
  · rw [if_neg hkilled] at hgroup ⊢
    exact hextinct old hold hgroup

theorem killGroup_onward (h : Host) (child : Nat) :
    Onward P h.machine (h.killGroup child).machine :=
  (killGroup_within h.machine child 9).toOnward

theorem note_onward (h : Host) (source : String) (level : LogLevel) (text : String) :
    Onward P h.machine (h.note source level text).machine :=
  onward_of_children rfl (Nat.le_refl _)

def killEach (children : List Nat) (h : Host) : Host :=
  children.foldl
    (fun h child =>
      (h.note "snipexec.executor.process" .info s!"Killing process group {child}").killGroup
        child) h

theorem killAll_eq (h : Host) : h.killAll.1 = killEach h.tracker.children h := rfl

theorem killEach_onward (children : List Nat) (h : Host) :
    Onward P h.machine (killEach children h).machine := by
  induction children generalizing h with
  | nil => exact .refl _
  | cons child rest ih =>
    exact ((note_onward h _ _ _).trans (killGroup_onward _ child)).trans (ih _)

theorem killEach_tracker (children : List Nat) (h : Host) :
    (killEach children h).tracker = h.tracker := by
  induction children generalizing h with
  | nil => rfl
  | cons child rest ih => exact ih _

theorem extinct_killEach (children : List Nat) (hextinct : h.Extinct k) :
    (killEach children h).Extinct k := by
  induction children generalizing h with
  | nil => exact hextinct
  | cons child rest ih => exact ih (extinct_killGroup hextinct child)

theorem killEach_extinct {children : List Nat} (hmem : k ∈ children) (h : Host) :
    (killEach children h).Extinct k := by
  induction children generalizing h with
  | nil => cases hmem
  | cons child rest ih =>
    rcases List.mem_cons.mp hmem with rfl | hrest
    · exact extinct_killEach rest (killGroup_extinct _ _)
    · exact ih hrest _

end Host

namespace SpawnPlan

variable {p : SpawnPlan} {spawned : Spawned}

/-- A child that is started leads its group, as its number was never given before. -/
theorem start_spawns (hnum : h.machine.Numbered) (hstart : p.start h = .ok (h', spawned)) :
    h'.machine.Placed (Child.Heads spawned.child) ∧ ∃ c, h'.machine.find? spawned.child = some c ∧
      c.group = spawned.child ∧ c.ending = none := by
  obtain ⟨c, hplace, hending, hnew, hgiven, hchildren⟩ := start_machine hstart
  have hid : c.id = spawned.child := congrArg Prod.fst hplace
  have hold : ∀ x ∈ h.machine.children, x.id ≠ spawned.child := by
    intro x hx
    have hlt := hnum x hx
    omega
  have hsame : (h.machine.children.map fun x => if x.id == spawned.child then c else x) =
      h.machine.children :=
    (List.map_congr_left fun x hx => if_neg (by simpa using hold x hx)).trans (List.map_id' _)
  rw [hsame] at hchildren
  refine ⟨⟨fun x hx hhead => ?_, fun id group hle hhead => ?_⟩, c, ?_, ?_, hending⟩
  · rcases List.mem_append.mp (hchildren ▸ hx) with hx | hx
    · exact absurd hhead (hold x hx)
    · rw [List.mem_singleton.mp hx]
      exact congrArg Prod.snd hplace
  · exact absurd hhead (by dsimp only; omega)
  · have hnone : h.machine.children.find? (·.id == spawned.child) = none :=
      List.find?_eq_none.mpr fun x hx => by simpa using hold x hx
    simp [Machine.find?, hchildren, List.find?_append, hnone, hid]
  · exact congrArg Prod.snd hplace

theorem start_onward (hstart : p.start h = .ok (h', spawned)) :
    Onward P h.machine h'.machine := by
  obtain ⟨c, hplace, -, hnew, hgiven, hchildren⟩ := start_machine hstart
  have hall {Q : Child → Prop} (hc : Q c) (hold : ∀ x ∈ h.machine.children, Q x) :
      ∀ x ∈ h'.machine.children, Q x := by
    intro x hx
    rcases List.mem_append.mp (hchildren ▸ hx) with hx | hx
    · obtain ⟨old, hmem, rfl⟩ := List.mem_map.mp hx
      split
      · exact hc
      · exact hold old hmem
    · exact List.mem_singleton.mp hx ▸ hc
  refine ⟨by omega, fun hnum => hall ?_ fun x hx => ?_, fun hplaced => ⟨hall ?_ ?_, ?_⟩⟩
  · have hid : c.id = spawned.child := congrArg Prod.fst hplace
    omega
  · have hlt := hnum x hx
    omega
  · exact hplace ▸ hplaced.later _ _ hnew
  · exact hplaced.children
  · exact fun id group hle => hplaced.later id group (by omega)

end SpawnPlan

namespace Chain

variable {c c' : Chain} {r : RunningStep}

theorem release_onward (spawned : Spawned) (h : Host) :
    Onward P h.machine (spawned.release h).machine where
  nextId := Nat.le_refl _
  numbered hnum x hx := hnum x (List.mem_filter.mp hx).1
  placed hplaced := ⟨fun x hx => hplaced.children x (List.mem_filter.mp hx).1, hplaced.later⟩

theorem Deed.perform_onward (job : String) (d : Deed) (h : Host) :
    Onward P h.machine (d.perform job h).machine := by
  cases d with
  | note e => exact h.note_onward ..
  | start plan spawned =>
    cases hstart : plan.start h with
    | error failure => simpa only [perform, hstart] using Onward.refl h.machine
    | ok started => simpa only [perform, hstart] using SpawnPlan.start_onward hstart
  | kill child cause => exact h.killGroup_onward child
  | release spawned => exact release_onward spawned h
  | _ => exact .refl _

theorem step_onward (c : Chain) (h : Host) : Onward P h.machine (c.step h).host.machine := by
  have hall (ds : List Deed) (h : Host) :
      Onward P h.machine (Deed.performAll c.plan.job ds h).machine := by
    induction ds generalizing h with
    | nil => exact .refl _
    | cons d rest ih => exact (d.perform_onward _ h).trans (ih _)
  rw [← performAll_deeds]
  exact hall ..

/-- The child of the step that runs is on the tracker, and leads a group. -/
def Tended (c : Chain) (h : Host) : Prop :=
  ∀ r, c.running = some r → r.spawned.child ∈ h.tracker.children ∧
    h.machine.Placed (Child.Heads r.spawned.child)

theorem Tended.onward (htended : c.Tended h) (htracker : h'.tracker.jobs = h.tracker.jobs)
    (hplaced : ∀ P, h.machine.Placed P → h'.machine.Placed P) : c.Tended h' := by
  intro r hr
  obtain ⟨hmem, hheads⟩ := htended r hr
  exact ⟨Tracker.children_congr htracker ▸ hmem, hplaced _ hheads⟩

/-- A chain that has no child and goes on begins a step. -/
theorem step_begins (hidle : c.running = none) (hstep : c.step h = .moved h' c') :
    ∃ noted argv last started r, c'.running = some r ∧
      noted.machine.children = h.machine.children ∧ noted.machine.nextId = h.machine.nextId ∧
      noted.tracker = h.tracker ∧
      (c.plan.spawnPlan noted argv last).start noted = .ok (started, r.spawned) ∧
      h' = started.track c.plan.job r.spawned.child := by
  simp only [step, hidle] at hstep
  split at hstep
  · cases hstep
  · next argv rest _ =>
    split at hstep
    · cases hstep
    · unfold beginStep at hstep
      dsimp only at hstep
      split at hstep
      · cases hstep
      · next hstart =>
        cases hstep
        exact ⟨h.note _ _ _, argv, rest.isEmpty, _, _, rfl, rfl, rfl, rfl, hstart, rfl⟩

theorem track_onward (h : Host) (job : String) (child : Nat) :
    Onward P h.machine (h.track job child).machine := by
  unfold Host.track
  dsimp only
  split
  · exact (Host.note_onward _ _ _ _).trans (Host.killGroup_onward _ child)
  · exact .refl _

theorem Tended.step (hnum : h.machine.Numbered) (htended : c.Tended h)
    (hstep : c.step h = .moved h' c') : c'.Tended h' := by
  cases step_moves hstep with
  | begins argv rest r _ hidle =>
    obtain ⟨noted, argv, last, started, r, hr, hchildren, hnext, htracker, hstart, rfl⟩ :=
      step_begins hidle hstep
    rintro _ hsame
    cases hr.symm.trans hsame
    have hnoted : noted.machine.Numbered := fun x hx => hnext ▸ hnum x (hchildren ▸ hx)
    refine ⟨?_, (track_onward ..).placed (SpawnPlan.start_spawns hnoted hstart).1⟩
    rw [Host.track_tracker]
    exact Tracker.mem_children_of_mem_ofJob (Tracker.mem_ofJob_add ..)
  | polls r r' _ hr hlive =>
    intro after hafter
    have honward := c.step_onward (P := Child.Heads r.spawned.child) h
    have htracker := c.step_tracker h
    have hsilent : c.change? h = none := by simp [change?, hr, hlive]
    rw [hstep, hsilent] at htracker
    rw [hstep] at honward
    rcases step_child hstep hafter with ⟨before, hbefore, hsame⟩ | hlisted
    · cases hr.symm.trans hbefore
      obtain ⟨hmem, hheads⟩ := htended r hr
      exact hsame ▸ ⟨htracker ▸ hmem, honward.placed hheads⟩
    · cases hsilent.symm.trans hlisted
  | ends r _ hr => exact fun _ h => by cases h

def Wound (c : Chain) (h : Host) : Prop := ∀ r, c.running = some r → r.spawned.isLive h = false

/-- How many moves are left to a chain that begins no step whose child is not killed at once. -/
def movesLeft (c : Chain) (h : Host) : Nat :=
  match c.running with
  | none => 3
  | some r => if r.spawned.exitCode h = 0 then 4 else 2

theorem find?_killGroup (m : Machine) (id group : Nat) :
    (m.killGroup group 9).find? id = (m.find? id).map fun c =>
      if c.group == group && c.ending.isNone then
        { c with ending := some (.killed 9), tasks := [] }
      else c := by
  unfold Machine.find? Machine.killGroup
  rw [List.find?_map]
  refine congrArg _ (congrArg (List.find? · m.children) (funext fun c => ?_))
  dsimp only [Function.comp]
  split <;> rfl

theorem exitCode_killGroup {spawned : Spawned} (hended : spawned.isLive h = false) (child : Nat) :
    spawned.exitCode (h.killGroup child) = spawned.exitCode h := by
  have hfind := find?_killGroup h.machine spawned.child child
  unfold Spawned.isLive at hended
  unfold Spawned.exitCode Machine.endingOf Host.killGroup
  rw [hfind]
  cases hfound : h.machine.find? spawned.child with
  | none => rfl
  | some c =>
    rw [hfound] at hended
    have hdead : c.ending.isNone = false := hended
    have hkept : (c.group == child && c.ending.isNone) = false := by rw [hdead, Bool.and_false]
    simp only [Option.map_some, hkept, Bool.false_eq_true, if_false]

theorem track_closed {c : Child} (hclosed : h.tracker.closed = true)
    (hfound : h.machine.find? k = some c) (hgroup : c.group = k) (hlive : c.ending = none)
    (job : String) :
    (h.track job k).machine.find? k = some { c with ending := some (.killed 9), tasks := [] } := by
  unfold Host.track
  dsimp only
  rw [Tracker.closed_add, hclosed, if_pos rfl]
  refine (find?_killGroup _ k k).trans ((congrArg _ hfound).trans ?_)
  simp [hgroup, hlive]

/-- Once the tracker is closed, each move brings the end of a chain nearer. -/
theorem Wound.step (hnum : h.machine.Numbered) (hclosed : h.tracker.closed = true)
    (hwound : c.Wound h) (hstep : c.step h = .moved h' c') :
    c'.Wound h' ∧ c'.movesLeft h' < c.movesLeft h := by
  cases step_moves hstep with
  | begins argv rest r _ hidle =>
    obtain ⟨noted, argv, last, started, r, hr, hchildren, hnext, htracker, hstart, rfl⟩ :=
      step_begins hidle hstep
    cases hr
    have hnoted : noted.machine.Numbered := fun x hx => hnext ▸ hnum x (hchildren ▸ hx)
    obtain ⟨-, child, hfound, hgroup, hlive⟩ := SpawnPlan.start_spawns hnoted hstart
    have hstarted : started.tracker.closed = true := by
      rw [SpawnPlan.start_tracker hstart, htracker, hclosed]
    have hkilled := track_closed hstarted hfound hgroup hlive c.plan.job
    constructor
    · intro _ hsame
      cases hsame
      simp [Spawned.isLive, hkilled, Machine.isLive]
    · simp [movesLeft, hidle, Spawned.exitCode, Machine.endingOf, hkilled, Ending.code]
  | polls r r' _ hr hlive => exact absurd hlive (by simp [hwound r hr])
  | ends r _ hr hended _ hverdict =>
    have hcode : r.spawned.exitCode (h.killGroup r.spawned.child) = 0 :=
      (Watched.verdict_none.mp hverdict).code
    rw [exitCode_killGroup hended] at hcode
    constructor
    · intro _ hnow
      cases hnow
    · simp [movesLeft, hr, hcode]

theorem Wound.not_waiting (hwound : c.Wound h) {until_ : Nat} :
    c.step h ≠ .waiting h' c' until_ := by
  intro hstep
  obtain ⟨r, hr, hlive⟩ := (step_waits hstep).live
  exact absurd hlive (by simp [hwound r hr])

/-- When everything on the tracker is killed, the child of the step that runs has ended. -/
theorem Tended.killAll (htended : c.Tended h) : c.Wound h.killAll.1 := by
  intro r hr
  obtain ⟨hmem, hheads⟩ := htended r hr
  rw [Host.killAll_eq]
  exact Host.lives_of_extinct ((Host.killEach_onward ..).placed hheads)
    (Host.killEach_extinct hmem h)

end Chain

end SnippetRunner
