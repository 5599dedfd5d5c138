import SnippetRunner.Proofs.Server.Order

/-!
Sessions of a server that is stopped and started again. A caller who waits for a worker to stop
may lose patience and let it go while it lives; the next start then puts another worker beside
it. Whatever the schedule, a worker that lives is the one started last or was let go like this,
so that a stop and a start after it leave one worker only if the first one has stopped.
-/
namespace SnippetRunner.Server

variable {s s' mid : Server} {k : Nat} {job : Job}

inductive Called (w : Watched) : Watched → Prop
  | enter (job : Job) :
    Called w { w with
      server := { w.server with board := w.server.board.enter job }
      entered := job :: w.entered }
  | put (job : Job) : job ∈ w.entered →
    Called w { w with
      server := { w.server with board := w.server.board.put job }
      entered := w.entered.erase job
      puts := w.puts ++ [some job] }
  | askStop :
    Called w { w with
      server := { w.server with board := w.server.board.putStop }
      puts := w.puts ++ [none] }
  | aside (s : Server) : Quiet w.server s → Called w (w.after s)

/-- A server that is stopped and started again, with what was seen of it. -/
structure Session extends Watched where
  /-- The workers that lived when they were let go. -/
  abandoned : List Nat := []

namespace Session

def letGo (w : Session) : Session where
  toWatched := w.after { w.server with active := none }
  abandoned := w.abandoned ++ (w.server.active.filter w.server.isAlive).toList

inductive Step (w : Session) : Session → Prop
  | start : Step w ⟨w.after w.server.start.1, w.abandoned⟩
  | letGo : Step w w.letGo
  | call (seen : Watched) : Called w.toWatched seen → Step w ⟨seen, w.abandoned⟩
  | work (k : Nat) (s : Server) : w.server.stepWorker k = .moved s →
    Step w ⟨{ w.after s with finished := w.finished ++ striking w.server.workers[k]? },
      w.abandoned⟩
  | turn (k : Nat) (job : Job) (activity : Activity) (mid s : Server) :
    w.server.workers[k]? = some (.working job activity) → Quiet w.server mid →
    Turn mid k job s → Step w ⟨w.after s, w.abandoned⟩

/-- Any number of steps of any workers and callers in any order. -/
abbrev Run : Session → Session → Prop := Relation.ReflTransGen Step

end Session

section Workers

theorem isAlive_iff : s.isAlive k = true ↔ ∃ state, s.workers[k]? = some state ∧
    state ≠ .stopped := by
  unfold isAlive
  split <;> simp_all

theorem isAlive_congr (h : s'.workers = s.workers) (k : Nat) : s'.isAlive k = s.isAlive k := by
  simp only [isAlive, h]

theorem isAlive_added (h : s'.workers = s.workers ++ [.waiting]) :
    s'.isAlive k = true ↔ s.isAlive k = true ∨ k = s.workers.length := by
  simp only [isAlive_iff, h]
  rcases Nat.lt_trichotomy k s.workers.length with hk | rfl | hk
  · rw [List.getElem?_append_left hk]
    simp [Nat.ne_of_lt hk]
  · simp
  · have hnone : s.workers[k]? = none := List.getElem?_eq_none (by omega)
    have hnone' : (s.workers ++ [WorkerState.waiting])[k]? = none :=
      List.getElem?_eq_none (by simp; omega)
    simp [hnone, hnone', Nat.ne_of_gt hk]

structure ActsOn (s : Server) (k : Nat) (s' : Server) : Prop where
  workers : ∃ next, s'.workers = s.workers.set k next
  active : s'.active = s.active

theorem ActsOn.after (h : ActsOn mid k s') (hworkers : mid.workers = s.workers)
    (hactive : mid.active = s.active) : ActsOn s k s' where
  workers := hworkers ▸ h.workers
  active := h.active.trans hactive

theorem Quiet.actsOn (h : Quiet s mid) (ha : ActsOn mid k s') : ActsOn s k s' :=
  ha.after h.workers h.active

theorem ActsOn.isAlive {i : Nat} (h : ActsOn s k s') (hi : s'.isAlive i = true) (hk : i ≠ k) :
    s.isAlive i = true := by
  obtain ⟨next, hworkers⟩ := h.workers
  unfold Server.isAlive at hi ⊢
  rwa [hworkers, List.getElem?_set_ne (Ne.symm hk)] at hi

/-- Publishing a result leaves all workers alone. -/
theorem publish_actsOn {result : JobResult} {published : Except Failure OutputRecord}
    (h : (s.release k).publish result = (mid, published)) (ha : ActsOn mid k s') :
    ActsOn s k s' := by
  have hrelease := quiet_release s k
  cases h
  exact ha.after hrelease.workers hrelease.active

theorem conclude_actsOn (s : Server) (k : Nat) (job : Job) (result : JobResult) :
    ActsOn s k (s.conclude k job result) := by
  unfold conclude
  split
  all_goals
    rename_i heq
    exact publish_actsOn heq ⟨⟨_, rfl⟩, rfl⟩

theorem concludeFailure_actsOn (s : Server) (k : Nat) (job : Job) (failure : Failure) :
    ActsOn s k (s.concludeFailure k job failure) := by
  unfold concludeFailure
  dsimp only
  split
  · exact (quiet_note s _ _).actsOn (conclude_actsOn ..)
  · exact (quiet_note s _ _).actsOn (conclude_actsOn ..)

/-- A turn of a worker leaves the other ones alone. -/
theorem Turn.actsOn (h : Turn s k job s') : ActsOn s k s' := by
  cases h with
  | proceeded activity => exact ⟨⟨_, rfl⟩, rfl⟩
  | failed failure => exact concludeFailure_actsOn ..
  | ran report => exact (quiet_note s _ _).actsOn (conclude_actsOn ..)
  | cleaned =>
    unfold concludeClean
    split
    · rename_i heq
      exact publish_actsOn heq ⟨⟨_, rfl⟩, rfl⟩
    · rename_i heq
      exact publish_actsOn heq (concludeFailure_actsOn ..)

/-- A move of a worker leaves the other ones alone, and only one that lives makes a move. -/
theorem stepWorker_actsOn (h : s.stepWorker k = .moved s') :
    ActsOn s k s' ∧ s.isAlive k = true := by
  obtain ⟨state, hstate, hmove⟩ := stepWorker_cases h
  have halive : state ≠ .stopped → s.isAlive k = true := fun hne =>
    isAlive_iff.mpr ⟨state, hstate, hne⟩
  cases hmove with
  | works job activity s' hactivity =>
    obtain ⟨mid, hmid, hturn⟩ := stepActivity_turn hactivity
    exact ⟨hmid.actsOn hturn.actsOn, halive WorkerState.noConfusion⟩
  | _ => exact ⟨⟨⟨_, rfl⟩, rfl⟩, halive WorkerState.noConfusion⟩

end Workers

/-- What starting comes to: nothing, nothing but work on the host, or a further worker that
callers wait for from now on. -/
theorem start_cases (s : Server) :
    (s.active.any s.isAlive = true ∧ s.start = (s, .ok ())) ∨
      (s.active.any s.isAlive = false ∧
        ((Quiet s s.start.1 ∧ ∃ failure, s.start.2 = .error failure) ∨
          ∃ mid, Quiet s mid ∧ s.start.2 = .ok () ∧
            s.start.1 = { mid with
              active := some mid.workers.length
              workers := mid.workers ++ [.waiting] })) := by
  have hact := quiet_act s (Act.files s.workspace.ensure)
  unfold start
  split
  · rename_i halive
    exact Or.inl ⟨halive, rfl⟩
  · rename_i hgone
    refine Or.inr ⟨by simpa using hgone, ?_⟩
    split
    · rename_i mid failure heq
      rw [heq] at hact
      exact Or.inl ⟨hact, failure, rfl⟩
    · rename_i mid made heq
      rw [heq] at hact
      exact Or.inr ⟨_, hact.trans (quiet_note mid .info _), rfl, rfl⟩

namespace Session

variable {w w' : Session}

/-- A worker that lives is the one that callers wait for, or one that they gave up on. -/
def Attended (w : Session) : Prop :=
  ∀ k, w.server.isAlive k = true → w.server.active = some k ∨ k ∈ w.abandoned

theorem Attended.quiet (hw : Attended w) (h : Quiet w.server s) :
    Attended ⟨w.after s, w.abandoned⟩ := by
  intro k hk
  have halive : w.server.isAlive k = true := isAlive_congr h.workers k ▸ hk
  exact (hw k halive).imp_left h.active.trans

theorem Attended.start (hw : Attended w) : Attended ⟨w.after w.server.start.1, w.abandoned⟩ := by
  rcases start_cases w.server with ⟨-, hsame⟩ | ⟨hgone, hnew⟩
  · rw [hsame]
    exact hw.quiet (.refl _)
  · rcases hnew with ⟨hquiet, -⟩ | ⟨mid, hmid, -, hnow⟩
    · exact hw.quiet hquiet
    · intro k hk
      have hadded : w.server.start.1.workers = w.server.workers ++ [.waiting] := by
        rw [hnow, hmid.workers]
      have hactive : w.server.start.1.active = some w.server.workers.length := by
        rw [hnow, hmid.workers]
      rcases (isAlive_added hadded).mp hk with hold | rfl
      · refine Or.inr ((hw k hold).resolve_left fun hactive => ?_)
        simp [hactive, hold] at hgone
      · exact Or.inl hactive

theorem Attended.letGo (hw : Attended w) : Attended w.letGo := by
  intro k hk
  have halive : w.server.isAlive k = true := hk
  rcases hw k halive with hactive | hgiven
  · exact Or.inr (List.mem_append_right _ (by simp [hactive, halive]))
  · exact Or.inr (List.mem_append_left _ hgiven)

theorem Attended.actsOn {finished : List Job} (hw : Attended w) (h : ActsOn w.server k s)
    (halive : w.server.isAlive k = true) :
    Attended ⟨{ w.after s with finished := finished }, w.abandoned⟩ := by
  intro i hi
  have hold : w.server.isAlive i = true := by
    by_cases hik : i = k
    · exact hik ▸ halive
    · exact h.isAlive hi hik
  exact (hw i hold).imp_left h.active.trans

theorem Attended.step (hw : Attended w) (h : Step w w') : Attended w' := by
  cases h with
  | start => exact hw.start
  | letGo => exact hw.letGo
  | call seen hcall =>
    cases hcall with
    | enter job => exact hw
    | put job hentered => exact hw
    | askStop => exact hw
    | aside s hquiet => exact hw.quiet hquiet
  | work k s hmoved =>
    obtain ⟨hacts, halive⟩ := stepWorker_actsOn hmoved
    exact hw.actsOn hacts halive
  | turn k job activity mid s hworking hmid hturn =>
    exact hw.actsOn (hmid.actsOn hturn.actsOn)
      (isAlive_iff.mpr ⟨_, hworking, WorkerState.noConfusion⟩)

theorem Attended.run (hw : Attended w) (h : Run w w') : Attended w' := by
  induction h with
  | refl => exact hw
  | tail _ hstep ih => exact ih.step hstep

theorem fresh_attended (hfresh : Fresh s) : Attended ⟨{ server := s }, []⟩ := by
  intro k hk
  obtain ⟨state, hstate, -⟩ := isAlive_iff.mp hk
  simp [hfresh.workers] at hstate

end Session

section Stopping

theorem stepFirst_moved {wake : Option Nat} {children : List Nat}
    (h : s.stepFirst k wake children = .moved s') : ∃ i, s.stepWorker i = .moved s' := by
  fun_induction stepFirst s k wake children with
  | case1 worker wake children _ mid hmoved =>
    cases h
    exact ⟨worker, hmoved⟩
  | case2 worker wake children _ _ _ _ ih => exact ih h
  | case3 => cases h

inductive Proceeds (s : Server) : Server → Prop
  | move (k : Nat) (s' : Server) : s.stepWorker k = .moved s' → Proceeds s s'
  | pass (children : List Nat) (limit : Nat) :
    Proceeds s { s with host := s.host.pass children limit }

theorem workFor_proceeds (fuel : Nat) (goal : Server → Bool) (limit : Option Nat) (s : Server) :
    Relation.ReflTransGen Proceeds s (workFor fuel goal limit s) := by
  induction fuel generalizing s with
  | zero => exact .refl
  | succ fuel ih =>
    unfold workFor
    split
    · exact .refl
    split
    · next mid hmoved =>
      obtain ⟨k, hk⟩ := stepFirst_moved hmoved
      exact .head (.move k mid hk) (ih mid)
    · split
      · exact .refl
      split
      · exact .refl
      · next wake children _ _ _ t _ => exact .head (.pass children t) (ih _)

namespace Session

variable {w w' : Session}

/-- Working for a while is a part of a session in which callers do nothing. -/
theorem workFor_run (fuel : Nat) (goal : Server → Bool) (limit : Option Nat) (w : Session) :
    ∃ w', Run w w' ∧ w'.server = workFor fuel goal limit w.server ∧
      w'.server.active = w.server.active ∧ w'.abandoned = w.abandoned := by
  have hproceeds := workFor_proceeds fuel goal limit w.server
  generalize workFor fuel goal limit w.server = last at hproceeds ⊢
  induction hproceeds with
  | refl => exact ⟨w, .refl, rfl, rfl, rfl⟩
  | tail _ hstep ih =>
    obtain ⟨mid, hrun, rfl, hactive, habandoned⟩ := ih
    cases hstep with
    | move k _ hk =>
      exact ⟨_, hrun.tail (.work k _ hk), rfl, (stepWorker_actsOn hk).1.active.trans hactive,
        habandoned⟩
    | pass children t =>
      have hquiet := quiet_host mid.server (mid.server.host.pass children t)
      exact ⟨_, hrun.tail (.call _ (.aside _ hquiet)), rfl, hactive, habandoned⟩

def askStop (w : Session) : Session :=
  { w with
    server := { w.server with board := w.server.board.putStop }
    puts := w.puts ++ [none] }

/-- Stopping is a part of a session. Its worker is given up on if it lives in the end. -/
theorem stop_run {worker : Nat} (patience : Option Nat) (hactive : w.server.active = some worker) :
    ∃ w', Run w w' ∧ w'.server = w.server.stop patience ∧
      w'.abandoned = w.abandoned ++
        if (w.server.stop patience).isAlive worker then [worker] else [] := by
  have hasked : Step w w.askStop := .call _ .askStop
  obtain ⟨mid, hrun, hserver, hsame, habandoned⟩ := workFor_run _
    (fun s => !s.isAlive worker) (patience.map (w.server.host.machine.clock + ·)) w.askStop
  have hwaited : mid.server.active = some worker := hsame.trans hactive
  have hstop : mid.letGo.server = w.server.stop patience := by
    unfold Server.stop
    split
    · rename_i hnone
      cases hactive.symm.trans hnone
    · rename_i other hother
      cases hactive.symm.trans hother
      simp only [letGo, Watched.after, hserver]
      rfl
  have halive : (w.server.stop patience).isAlive worker = mid.server.isAlive worker := by
    rw [← hstop]
    rfl
  refine ⟨mid.letGo, .head hasked (hrun.tail .letGo), hstop, ?_⟩
  rw [letGo, habandoned, hwaited, halive]
  cases h : mid.server.isAlive worker <;> simp [askStop, h]

end Session

theorem stop_active (s : Server) (patience : Option Nat) : (s.stop patience).active = none := by
  unfold stop
  split
  · assumption
  · rfl

end Stopping

def OneLives (s : Server) : Prop :=
  ∀ i j, s.isAlive i = true → s.isAlive j = true → i = j

namespace Session

variable {w w' : Session}

theorem Attended.oneLives (hw : Attended w) (hkept : w.abandoned = []) : OneLives w.server := by
  intro i j hi hj
  have hactive := (hw i hi).resolve_right (by simp [hkept])
  have hactive' := (hw j hj).resolve_right (by simp [hkept])
  exact Option.some.inj (hactive.symm.trans hactive')

/-- Starting again after a stop leaves one worker if and only if the other one has stopped. -/
theorem restart_iff {worker : Nat} {patience : Option Nat} (hattended : Attended w)
    (hkept : w.abandoned = []) (hactive : w.server.active = some worker)
    (hstart : (w.server.stop patience).start.2 = .ok ()) :
    OneLives (w.server.stop patience).start.1 ↔
      (w.server.stop patience).isAlive worker = false := by
  have hgone := stop_active w.server patience
  constructor
  · intro hone
    rw [← Bool.not_eq_true]
    intro halive
    rcases start_cases (w.server.stop patience) with ⟨hany, -⟩ | ⟨-, hnew⟩
    · simp [hgone] at hany
    · rcases hnew with ⟨-, failure, herror⟩ | ⟨mid, hmid, -, hnow⟩
      · rw [herror] at hstart
        cases hstart
      · have hadded : (w.server.stop patience).start.1.workers =
            (w.server.stop patience).workers ++ [.waiting] := by
          rw [hnow, hmid.workers]
        have hsame := hone _ _ ((isAlive_added hadded).mpr (Or.inl halive))
          ((isAlive_added hadded).mpr (Or.inr rfl))
        obtain ⟨state, hstate, -⟩ := isAlive_iff.mp halive
        obtain ⟨hlt, -⟩ := List.getElem?_eq_some_iff.mp hstate
        omega
  · intro hstopped
    obtain ⟨w', hrun, hserver, habandoned⟩ := stop_run patience hactive
    have hkept' : w'.abandoned = [] := by simp [habandoned, hkept, hstopped]
    have hattended' := (hattended.run hrun).start.oneLives hkept'
    rw [← hserver]
    exact hattended'

end Session

end SnippetRunner.Server
