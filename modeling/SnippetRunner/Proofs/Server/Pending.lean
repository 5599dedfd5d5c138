import Mathlib.Data.List.Nodup
import SnippetRunner.Proofs.Server.Restarts
import SnippetRunner.Proofs.Server.Serving

/-!
The books of a server with one worker. Which jobs are pending, which are in the queue and which
one is the current one is kept in three places, and submitters and the worker change one at a
time. The invariant counts the jobs that were submitted and not struck off by where they are: with
their submitter, in the hand of the worker, or in the queue. Jobs with different names are
pending just as long.
-/
namespace SnippetRunner.Server

variable {s s' mid : Server} {k : Nat} {job : Job} {path : Option Path} {w w' : Watched}

def underway : WorkerState → List Job
  | .working job _ => [job]
  | .closing job => [job]
  | .failing job => [job]
  | _ => []

theorem inHand_of_underway {state : WorkerState} (h : job ∈ underway state) :
    inHand state = [job] := by
  cases state <;> simp_all [underway, inHand, taken, jobs]

namespace Watched

/-- Jobs that were submitted, whether their submitters put them in the queue yet or not. -/
def submitted (w : Watched) : List Job := w.entered ++ jobs w.puts

def unfinished (w : Watched) : List Job :=
  w.entered ++ w.server.workers.flatMap inHand ++ jobs w.server.board.queue

def Distinct (w : Watched) : Prop := (w.submitted.map Job.id).Nodup

end Watched

def entryOf (job : Job) : String × Job := (job.id, job)

theorem Served.submitted_perm (hw : Served path w) :
    w.submitted.Perm (w.finished ++ w.unfinished) := by
  have hputs : jobs w.puts =
      w.finished ++ (w.server.workers.flatMap inHand ++ jobs w.server.board.queue) := by
    have hall (workers : List WorkerState) :
        jobs (workers.flatMap taken) = workers.flatMap inHand := by
      induction workers with
      | nil => rfl
      | cons state rest ih => simp [List.flatMap_cons, ih, inHand]
    rw [hw.order, jobs_append, jobs_append, jobs_map_some, hall, List.append_assoc]
  rw [Watched.submitted, Watched.unfinished, hputs, List.append_assoc]
  exact List.perm_append_comm_assoc ..

/-- Steps only add to what was submitted. -/
theorem Step.submitted (h : Step w w') :
    w'.submitted.Perm w.submitted ∨ ∃ job, w'.submitted = job :: w.submitted := by
  cases h with
  | enter job => exact .inr ⟨job, rfl⟩
  | put job hentered =>
    refine .inl ?_
    have hmoved := (List.perm_cons_erase hentered).symm.append_right (jobs w.puts)
    simp only [Watched.submitted, jobs_append]
    rw [← List.append_assoc]
    exact (List.perm_append_singleton job _).trans hmoved
  | putStop =>
    simp only [Watched.submitted, jobs_append]
    exact .inl (by simp [jobs])
  | _ => exact .inl (.refl _)

theorem Step.distinct (h : Step w w') (hdistinct : w'.Distinct) : w.Distinct := by
  rcases h.submitted with hperm | ⟨job, hnew⟩
  · exact (hperm.map Job.id).nodup_iff.mp hdistinct
  · rw [Watched.Distinct, hnew, List.map_cons] at hdistinct
    exact (List.nodup_cons.mp hdistinct).2

structure Booked (w : Watched) : Prop where
  pending : w.server.board.pending.Perm (w.unfinished.map entryOf)
  current : w.server.board.current.toList = w.server.workers.flatMap underway

inductive BoardMove (s : Server) (k : Nat) : WorkerState → Server → Prop
  | took (item : Option Job) (rest : List (Option Job)) (next : WorkerState) :
    s.board.queue = item :: rest → taken next = [item] → underway next = [] →
    BoardMove s k .waiting { s with
      board := { s.board with queue := rest }, workers := s.workers.set k next }
  | began (job : Job) : BoardMove s k (.holding job) { s with
      board := s.board.begin_ job, workers := s.workers.set k (.working job .starting) }
  | worked (job : Job) (activity : Activity) (next : WorkerState) (s' : Server) :
    s'.board = s.board → s'.workers = s.workers.set k next →
    taken next = [some job] → underway next = [job] → BoardMove s k (.working job activity) s'
  | struck (job : Job) : BoardMove s k (.closing job) { s with
      board := s.board.finish job, workers := s.workers.set k .waiting }

theorem Turn.boardMove (h : Turn mid k job s') (hmid : Steady s mid) (activity : Activity)
    (hnum : s.sink.Numbered) (hpub : Sink.Publishes s.sink.path) :
    BoardMove s k (.working job activity) s' := by
  have of_concluded (hc : Concluded s k job s') : BoardMove s k (.working job activity) s' :=
    .worked job activity (.closing job) s' hc.board hc.workers rfl rfl
  have hnum' : mid.sink.Numbered := by rwa [hmid.sink]
  have hpub' : Sink.Publishes mid.sink.path := by rwa [hmid.sink]
  cases h with
  | proceeded next =>
    refine .worked job activity (.working job next) _ hmid.board ?_ rfl rfl
    simp [setWorker, hmid.workers]
  | failed failure =>
    exact of_concluded (hmid.concluded (concludeFailure_concluded failure hnum' hpub'))
  | ran report =>
    exact of_concluded (hmid.concluded (concludeRun_concluded report hnum' hpub'))
  | cleaned => exact of_concluded (hmid.concluded (concludeClean_concluded hnum' hpub'))

theorem stepWorker_boardMove {state : WorkerState} (hnum : s.sink.Numbered)
    (hpub : Sink.Publishes s.sink.path) (hstate : s.workers[k]? = some state)
    (hunfailing : ∀ job, state ≠ .failing job) (h : s.stepWorker k = .moved s') :
    BoardMove s k state s' := by
  cases stepWorker_move hstate h with
  | takes item rest hqueue =>
    refine .took item rest _ hqueue ?_ ?_
    all_goals cases item <;> rfl
  | begins job => exact .began job
  | works job activity s' hactivity =>
    obtain ⟨mid, hmid, hturn⟩ := stepActivity_turn hactivity
    exact hturn.boardMove hmid.toSteady activity hnum hpub
  | closes job => exact .struck job
  | fails job => exact absurd rfl (hunfailing job)

theorem Booked.steady (hw : Booked w) (h : Steady w.server s) : Booked (w.after s) where
  pending := by
    have hsame : (w.after s).unfinished = w.unfinished := by
      simp only [Watched.unfinished, Watched.after, h.board, h.workers]
    rw [hsame]
    exact h.board ▸ hw.pending
  current := by
    simp only [Watched.after, h.board, h.workers]
    exact hw.current

/-- A job whose name is new is pending at the end. -/
theorem enter_new {b : Board} (h : job.id ∉ b.pending.map (·.1)) :
    b.enter job = { b with pending := b.pending ++ [entryOf job] } := by
  unfold Board.enter
  rw [if_neg]
  · rfl
  · intro hany
    obtain ⟨p, hp, hsame⟩ := List.any_eq_true.mp hany
    rw [beq_iff_eq] at hsame
    exact h (hsame ▸ List.mem_map_of_mem hp)

theorem entry_ids (jobs : List Job) : (jobs.map entryOf).map (·.1) = jobs.map Job.id :=
  List.map_map

/-- Striking a job off takes it from jobs with other names. -/
theorem filter_entry {before after : List Job}
    (hdistinct : ((before ++ job :: after).map Job.id).Nodup) :
    ((before ++ job :: after).map entryOf).filter (·.1 != job.id) =
      (before ++ after).map entryOf := by
  have hother : ∀ other ∈ before ++ after, ((entryOf other).1 != job.id) = true := by
    intro other hmem
    have hnodup := (List.perm_middle.map Job.id).nodup_iff.mp hdistinct
    rw [List.map_cons, List.nodup_cons] at hnodup
    rw [bne_iff_ne]
    intro hsame
    exact hnodup.1 (hsame ▸ List.mem_map_of_mem hmem)
  have hself : ((entryOf job).1 != job.id) = false := by simp [entryOf]
  have hkept := List.filter_eq_self.mpr
    (fun p hp => by
      obtain ⟨other, hmem, rfl⟩ := List.mem_map.mp hp
      exact hother other hmem : ∀ p ∈ (before ++ after).map entryOf, (p.1 != job.id) = true)
  rw [List.map_append, List.map_cons, List.filter_append, List.filter_cons_of_neg (by simp [hself]),
    ← List.filter_append, ← List.map_append, hkept]

theorem Served.unfinished_distinct (hw : Served path w) (hdistinct : w.Distinct) :
    (w.unfinished.map Job.id).Nodup := by
  have hnodup := (hw.submitted_perm.map Job.id).nodup_iff.mp hdistinct
  rw [List.map_append] at hnodup
  exact (List.nodup_append.mp hnodup).2.1

/-- The books after a move, by the state in which it leaves the worker. -/
theorem Booked.moved {next : WorkerState} {finished : List Job} (hworkers : s.workers = [next])
    (hpending : s.board.pending.Perm
      ((w.entered ++ inHand next ++ jobs s.board.queue).map entryOf))
    (hcurrent : s.board.current.toList = underway next) :
    Booked { w.after s with finished := finished } where
  pending := by simpa [Watched.unfinished, Watched.after, hworkers] using hpending
  current := by simpa [Watched.after, hworkers] using hcurrent

/-- A move of the worker keeps the books. -/
theorem Booked.move {state : WorkerState} (hw : Booked w)
    (hworkers : w.server.workers = [state]) (hdistinct : (w.unfinished.map Job.id).Nodup)
    (h : BoardMove w.server 0 state s) (finished : List Job) :
    Booked { w.after s with finished := finished } := by
  have hpending := hw.pending
  have hcurrent := hw.current
  have hset (next : WorkerState) : w.server.workers.set 0 next = [next] := by
    rw [hworkers]
    rfl
  rw [Watched.unfinished, hworkers, List.flatMap_singleton] at hpending hdistinct
  rw [hworkers, List.flatMap_singleton] at hcurrent
  cases h with
  | took item rest next hqueue htaken hidle =>
    refine .moved (hset next) ?_ (hcurrent.trans hidle.symm)
    have hsame : inHand .waiting ++ jobs (item :: rest) = inHand next ++ jobs rest := by
      rw [inHand, inHand, htaken]
      exact jobs_append [item] rest
    rwa [List.append_assoc, hqueue, hsame, ← List.append_assoc] at hpending
  | began job => exact .moved (hset _) hpending rfl
  | worked job activity next _ hboard hworked htaken hunder =>
    refine .moved (hworked.trans (hset next)) ?_ ?_
    · have hhand : inHand next = inHand (.working job activity) := congrArg jobs htaken
      rw [hboard, hhand]
      exact hpending
    · rw [hboard, hunder]
      exact hcurrent
  | struck job =>
    have hbefore : w.entered ++ inHand (.closing job) ++ jobs w.server.board.queue =
        w.entered ++ job :: jobs w.server.board.queue := List.append_assoc ..
    have hafter : w.entered ++ inHand .waiting ++ jobs w.server.board.queue =
        w.entered ++ jobs w.server.board.queue := congrArg (· ++ _) (List.append_nil _)
    rw [hbefore] at hpending hdistinct
    have hkept := hpending.filter (·.1 != job.id)
    rw [filter_entry hdistinct, ← hafter] at hkept
    exact .moved (hset _) hkept rfl

theorem Booked.start (hw : Booked w) : Booked (w.after w.server.start.1) := by
  rcases start_cases w.server with ⟨-, hsame⟩ | ⟨-, hnew⟩
  · rw [hsame]
    exact hw.steady (.refl _)
  · rcases hnew with ⟨hquiet, -⟩ | ⟨mid, hmid, -, hnow⟩
    · exact hw.steady hquiet.toSteady
    · have hmid := hw.steady hmid.toSteady
      rw [hnow]
      refine ⟨?_, ?_⟩
      · simpa [Watched.unfinished, Watched.after, inHand, taken, jobs] using hmid.pending
      · simpa [Watched.after, underway] using hmid.current

theorem Booked.enter (hw : Booked w) (hnew : job.id ∉ w.unfinished.map Job.id) :
    Booked { w with
      server := { w.server with board := w.server.board.enter job }
      entered := job :: w.entered } := by
  have hlisted : job.id ∉ w.server.board.pending.map (·.1) := by
    rw [(hw.pending.map _).mem_iff, entry_ids]
    exact hnew
  refine ⟨?_, ?_⟩
  · simp only [Watched.unfinished, enter_new hlisted]
    exact (List.perm_append_singleton _ _).trans (hw.pending.cons _)
  · simp only [enter_new hlisted]
    exact hw.current

/-- A job passes from its submitter to the queue. -/
theorem Booked.put (hw : Booked w) (hentered : job ∈ w.entered) :
    Booked { w with
      server := { w.server with board := w.server.board.put job }
      entered := w.entered.erase job
      puts := w.puts ++ [some job] } := by
  refine ⟨hw.pending.trans (List.Perm.map _ ?_), hw.current⟩
  have hout := (List.perm_cons_erase hentered).append_right
    (w.server.workers.flatMap inHand ++ jobs w.server.board.queue)
  have hin := List.perm_append_singleton job (w.entered.erase job ++
    (w.server.workers.flatMap inHand ++ jobs w.server.board.queue))
  have hqueue : jobs (w.server.board.put job).queue = jobs w.server.board.queue ++ [job] :=
    jobs_append _ [some job]
  simp only [Watched.unfinished, hqueue, List.append_assoc] at hin ⊢
  exact hout.trans hin.symm

/-- Every step of a schedule keeps the books. -/
theorem Booked.step (hpub : Sink.Publishes path) (hserved : Served path w) (hw : Booked w)
    (h : Step w w') (hdistinct : w'.Distinct) : Booked w' := by
  have hsubmitted := h.distinct hdistinct
  have hbefore := hserved.unfinished_distinct hsubmitted
  cases h with
  | start hone => exact hw.start
  | enter job =>
    refine hw.enter fun hold => ?_
    have hnew : job.id ∉ w.submitted.map Job.id := (List.nodup_cons.mp hdistinct).1
    rw [(hserved.submitted_perm.map Job.id).mem_iff, List.map_append] at hnew
    exact hnew (List.mem_append_right _ hold)
  | put job hentered => exact hw.put hentered
  | putStop =>
    refine ⟨hw.pending.trans (List.Perm.of_eq ?_), hw.current⟩
    simp [Watched.unfinished, Board.putStop, jobs]
  | cancel id => exact hw.steady (steady_cancel _ id)
  | cancelAll close => exact hw.steady (steady_cancelAll _ close)
  | aside s hsteady => exact hw.steady hsteady
  | work s hmoved =>
    obtain ⟨state, hstate, -⟩ := stepWorker_cases hmoved
    have hunfailing := hserved.alive state (List.mem_of_getElem? hstate)
    have hmove := stepWorker_boardMove hserved.numbered (hserved.path ▸ hpub) hstate
      hunfailing hmoved
    rw [hstate]
    exact hw.move (lone_eq hserved.lone hstate) hbefore hmove _
  | turn job activity mid s hworking hmid hturn =>
    have hmove := hturn.boardMove hmid activity hserved.numbered (hserved.path ▸ hpub)
    exact hw.move (lone_eq hserved.lone hworking) hbefore hmove w.finished

theorem Booked.run (hpub : Sink.Publishes path) (hserved : Served path w) (hw : Booked w)
    (h : Run w w') (hdistinct : w'.Distinct) : Booked w' := by
  induction h with
  | refl => exact hw
  | tail hrun hstep ih =>
    exact (ih (hstep.distinct hdistinct)).step hpub (hserved.run hpub hrun) hstep hdistinct

/-- What was published stays so. -/
theorem Run.published (h : Run w w') : w.published ⊆ w'.published := by
  induction h with
  | refl => exact List.Subset.refl _
  | tail _ hstep ih =>
    refine List.Subset.trans ih ?_
    cases hstep <;> simp [Watched.after]

/-- What the books of a server say of the jobs that were submitted. -/
structure Accounted (w : Watched) : Prop where
  /-- A job is pending, under its name, from its submission until it is struck off. -/
  pending : ∀ p, p ∈ w.server.board.pending ↔
    ∃ job ∈ w.submitted, job ∉ w.finished ∧ p = entryOf job
  nodup : (w.server.board.pending.map (·.1)).Nodup
  current : ∀ job, w.server.board.current = some job → entryOf job ∈ w.server.board.pending
  queue : ∀ job, some job ∈ w.server.board.queue → entryOf job ∈ w.server.board.pending
  /-- The number that callers are told is a difference, which does not become negative. -/
  queued : w.server.status.queued =
    (w.server.board.pending.filter fun p => some p.1 ≠ w.server.status.currentJob).length
  /-- A job that was struck off has its record. -/
  published : ∀ job ∈ w.finished, ∃ record ∈ w.published, record.result.jobId = job.id
  idle : w.server.board.isIdle = true →
    ∀ job ∈ w.submitted, ∃ record ∈ w.published, record.result.jobId = job.id

theorem Served.finished_published (hserved : Served path w) (hfinished : job ∈ w.finished) :
    ∃ record ∈ w.published, record.result.jobId = job.id := by
  have hlisted : job.id ∈ (w.finished ++ w.server.workers.flatMap reported).map Job.id :=
    List.mem_map_of_mem (List.mem_append_left _ hfinished)
  rw [← hserved.records] at hlisted
  exact List.mem_map.mp hlisted

theorem Booked.mem_pending (hw : Booked w) {p : String × Job} :
    p ∈ w.server.board.pending ↔ ∃ job ∈ w.unfinished, p = entryOf job := by
  rw [hw.pending.mem_iff, List.mem_map]
  simp only [eq_comm]

theorem Served.mem_unfinished (hserved : Served path w) (hdistinct : w.Distinct) :
    job ∈ w.unfinished ↔ job ∈ w.submitted ∧ job ∉ w.finished := by
  have hnodup := hserved.submitted_perm.nodup_iff.mp (List.Nodup.of_map Job.id hdistinct)
  have hapart := (List.nodup_append.mp hnodup).2.2
  rw [hserved.submitted_perm.mem_iff, List.mem_append]
  constructor
  · exact fun h => ⟨.inr h, fun hfinished => hapart job hfinished job h rfl⟩
  · exact fun h => h.1.resolve_left h.2

theorem Booked.current_mem (hw : Booked w) (hcurrent : w.server.board.current = some job) :
    job ∈ w.unfinished := by
  have hunder : job ∈ w.server.workers.flatMap underway := by
    rw [← hw.current, hcurrent]
    exact List.mem_singleton.mpr rfl
  obtain ⟨state, hstate, hjob⟩ := List.mem_flatMap.mp hunder
  have hhand : job ∈ w.server.workers.flatMap inHand := by
    refine List.mem_flatMap.mpr ⟨state, hstate, ?_⟩
    rw [inHand_of_underway hjob]
    exact List.mem_singleton.mpr rfl
  exact List.mem_append_left _ (List.mem_append_right _ hhand)

theorem Booked.queued (hw : Booked w) (hdistinct : (w.unfinished.map Job.id).Nodup) :
    w.server.status.queued =
      (w.server.board.pending.filter fun p => some p.1 ≠ w.server.status.currentJob).length := by
  unfold status Board.queued
  cases hcurrent : w.server.board.current with
  | none =>
    rw [List.filter_eq_self.mpr (by simp)]
    simp
  | some job =>
    obtain ⟨before, after, hsplit⟩ := List.append_of_mem (hw.current_mem hcurrent)
    have hpending := hw.pending
    rw [hsplit] at hpending hdistinct
    have hall := hpending.length_eq
    have hothers := (hpending.filter (·.1 != job.id)).length_eq
    rw [filter_entry hdistinct] at hothers
    have hsame : (fun p : String × Job => decide (some p.1 ≠ some job.id)) = (·.1 != job.id) := by
      funext p
      by_cases h : p.1 = job.id <;> simp [h]
    simp only [Option.map_some, Option.isSome_some, if_true, hsame, hothers, hall,
      List.length_map, List.length_append, List.length_cons]
    omega

theorem Booked.accounted (hserved : Served path w) (hw : Booked w) (hdistinct : w.Distinct) :
    Accounted w where
  pending p := by
    rw [hw.mem_pending]
    simp only [hserved.mem_unfinished hdistinct, and_assoc]
  nodup := by
    rw [(hw.pending.map _).nodup_iff, entry_ids]
    exact hserved.unfinished_distinct hdistinct
  current job hcurrent := hw.mem_pending.mpr ⟨job, hw.current_mem hcurrent, rfl⟩
  queue job hqueue := by
    refine hw.mem_pending.mpr ⟨job, List.mem_append_right _ ?_, rfl⟩
    exact List.mem_filterMap.mpr ⟨some job, hqueue, rfl⟩
  queued := hw.queued (hserved.unfinished_distinct hdistinct)
  published job hfinished := hserved.finished_published hfinished
  idle hidle job hsubmitted := by
    refine hserved.finished_published (Decidable.byContradiction fun hleft => ?_)
    have hlisted := hw.mem_pending.mpr
      ⟨job, (hserved.mem_unfinished hdistinct).mpr ⟨hsubmitted, hleft⟩, rfl⟩
    rw [List.isEmpty_iff.mp hidle] at hlisted
    cases hlisted

theorem Fresh.booked (hfresh : Fresh s) (hboard : s.board = {}) : Booked { server := s } where
  pending := by simp [Watched.unfinished, hfresh.workers, hboard, jobs]
  current := by simp [hfresh.workers, hboard]

/-- Whatever submitters, cancellers and the worker do, and in whatever order, the jobs that are
pending are those that were submitted and not struck off, and the number of those that wait is
told right. Who waits for a server to be idle returns when all jobs submitted before have their
records, whatever goes on meanwhile. -/
theorem pending_accounted (hfresh : Fresh s) (hboard : s.board = {})
    (hpub : Sink.Publishes s.sink.path) (hrun : Run { server := s } w) (hdistinct : w.Distinct) :
    Accounted w ∧
      (w.server.board.isIdle = true → ∀ w', Run w w' →
        ∀ job ∈ w.submitted, ∃ record ∈ w'.published, record.result.jobId = job.id) ∧
      ∀ patience, ∃ w', Run w w' ∧ w'.server = (w.server.waitIdle patience).1 ∧
        w'.submitted = w.submitted ∧ ((w.server.waitIdle patience).2 = true →
          ∀ job ∈ w.submitted, ∃ record ∈ w'.published, record.result.jobId = job.id) := by
  have hserved := hfresh.served.run hpub hrun
  have hbooked := (hfresh.booked hboard).run hpub hfresh.served hrun hdistinct
  have haccounted := hbooked.accounted hserved hdistinct
  refine ⟨haccounted, ?_, ?_⟩
  · intro hidle w' hlater job hjob
    obtain ⟨record, hrecord, hname⟩ := haccounted.idle hidle job hjob
    exact ⟨record, hlater.published hrecord, hname⟩
  · intro patience
    obtain ⟨w', hwait, hserver, hputs, hentered⟩ := workFor_run hpub _ (·.board.isIdle)
      (patience.map (w.server.host.machine.clock + ·)) hserved
    have hsame : w'.submitted = w.submitted := by
      rw [Watched.submitted, hputs, hentered]
      rfl
    have hdistinct' : w'.Distinct := by rwa [Watched.Distinct, hsame]
    refine ⟨w', hwait, hserver, hsame, fun hidle => ?_⟩
    have hnow : w'.server.board.isIdle = true := by
      rw [hserver]
      exact hidle
    rw [← hsame]
    exact ((hbooked.run hpub hserved hwait hdistinct').accounted (hserved.run hpub hwait)
      hdistinct').idle hnow

/-- One job is worked on while the submitter of another one did not put it in the queue yet. -/
theorem pending_accounted_twoJobs : Fresh idleServer ∧ idleServer.board = {} ∧
    Sink.Publishes idleServer.sink.path ∧ ∃ w, Run { server := idleServer } w ∧ w.Distinct ∧
      Accounted w ∧ w.server.board.pending.map (·.1) = ["first", "second"] ∧
      w.server.status.currentJob = some "first" ∧ w.server.status.queued = 1 := by
  have hfresh : Fresh idleServer := ⟨rfl, rfl, rfl⟩
  obtain ⟨host, hstart⟩ := start_eq (s := idleServer) rfl (congrArg Prod.fst ensure_idleServer)
  have h := Relation.ReflTransGen.refl (r := Step) (a := { server := idleServer })
  have h := h.tail (.start (.inl rfl))
  rw [hstart] at h
  have h := h.tail (.enter emptyJob)
  have h := h.tail (.put emptyJob (List.mem_singleton.mpr rfl))
  have h := h.tail (.enter ⟨"second", .clean, 2⟩)
  -- The worker takes the first job and begins it.
  have h := h.tail (.work _ rfl)
  have h := h.tail (.work _ rfl)
  have hdistinct : ["second", "first"].Nodup := by decide
  exact ⟨hfresh, rfl, Sink.publishes_none, _, h, hdistinct,
    (pending_accounted hfresh rfl Sink.publishes_none h hdistinct).1, rfl, rfl, rfl⟩

end SnippetRunner.Server
