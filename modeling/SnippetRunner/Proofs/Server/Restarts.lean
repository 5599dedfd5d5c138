import SnippetRunner.Proofs.Server.Sessions

/-!
The order in which a server serves that is stopped and started again. As long as nobody loses
patience with a worker and lets it go while it lives, one worker at a time serves the queue, and
a job is taken only after the records of all jobs put before it are published.
-/
namespace SnippetRunner.Server

variable {s s' mid : Server} {k : Nat} {job : Job} {path : Option Path}

section Lone

def jobs (items : List (Option Job)) : List Job :=
  items.filterMap id

@[simp] theorem jobs_append (items more : List (Option Job)) :
    jobs (items ++ more) = jobs items ++ jobs more :=
  List.filterMap_append

@[simp] theorem jobs_map_some (items : List Job) : jobs (items.map some) = items := by
  simp [jobs, List.filterMap_map]

def inHand (state : WorkerState) : List Job :=
  jobs (taken state)

def Lone (workers : List WorkerState) (k : Nat) : Prop :=
  ∀ i state, i ≠ k → workers[i]? = some state → state = .stopped

theorem Lone.set {workers : List WorkerState} (h : Lone workers k) (next : WorkerState) :
    Lone (workers.set k next) k := by
  intro i state hik hstate
  rw [List.getElem?_set_ne (Ne.symm hik)] at hstate
  exact h i state hik hstate

/-- Workers that have stopped contribute nothing. -/
theorem Lone.flatMap {workers : List WorkerState} {state : WorkerState} {β : Type}
    {f : WorkerState → List β} (h : Lone workers k) (hf : f .stopped = [])
    (hstate : workers[k]? = some state) : workers.flatMap f = f state := by
  induction workers generalizing k with
  | nil => simp at hstate
  | cons first rest ih =>
    rw [List.flatMap_cons]
    cases k with
    | zero =>
      have hrest : rest.flatMap f = [] := by
        rw [List.flatMap_eq_nil_iff]
        intro other hother
        obtain ⟨i, hi⟩ := List.mem_iff_getElem?.mp hother
        rw [h (i + 1) other (by omega) hi, hf]
      cases hstate
      rw [hrest, List.append_nil]
    | succ k =>
      have hfirst : first = .stopped := h 0 first (by omega) rfl
      have hrest : Lone rest k := fun i other hik hi => h (i + 1) other (by omega) hi
      rw [hfirst, hf, List.nil_append, ih hrest hstate]

theorem Lone.flatMap_set {workers : List WorkerState} {state : WorkerState} {β : Type}
    {f : WorkerState → List β} (h : Lone workers k) (hf : f .stopped = [])
    (hstate : workers[k]? = some state) (next : WorkerState) :
    (workers.set k next).flatMap f = f next := by
  obtain ⟨hk, -⟩ := List.getElem?_eq_some_iff.mp hstate
  exact (h.set next).flatMap hf (by simp [hk])

end Lone

namespace Session

variable {w w' : Session}

/-- What holds of a session at every moment, as long as no worker was given up on. -/
structure Tended (path : Option Path) (w : Session) : Prop where
  numbered : w.server.sink.Numbered
  path : w.server.sink.path = path
  unfailing : ∀ state ∈ w.server.workers, ∀ job, state ≠ .failing job
  records : w.published.map (·.result.jobId) =
    (w.finished ++ w.server.workers.flatMap reported).map (·.id)
  order : jobs w.puts =
    w.finished ++ w.server.workers.flatMap inHand ++ jobs w.server.board.queue

/-- A move that publishes nothing, by what it does to the workers and the queue. -/
theorem Tended.silent {finished : List Job} (hw : Tended path w)
    (hsink : s.sink = w.server.sink)
    (hunfailing : ∀ state ∈ s.workers, ∀ job, state ≠ .failing job)
    (hrecords : w.finished ++ w.server.workers.flatMap reported =
      finished ++ s.workers.flatMap reported)
    (horder : w.finished ++ w.server.workers.flatMap inHand ++ jobs w.server.board.queue =
      finished ++ s.workers.flatMap inHand ++ jobs s.board.queue) (abandoned : List Nat) :
    Tended path ⟨{ w.after s with finished := finished }, abandoned⟩ where
  numbered := by
    simp only [Watched.after, hsink]
    exact hw.numbered
  path := by
    simp only [Watched.after, hsink]
    exact hw.path
  unfailing := hunfailing
  records := by
    have hsince : s.sink.since w.server.sink.seq = [] := by
      rw [hsink]
      exact Sink.since_seq hw.numbered
    have hold := hw.records
    rw [hrecords] at hold
    simpa only [Watched.after, hsince, List.append_nil] using hold
  order := hw.order.trans horder

theorem Tended.steady (hw : Tended path w) (h : Steady w.server s) (abandoned : List Nat) :
    Tended path ⟨w.after s, abandoned⟩ := by
  refine hw.silent h.sink ?_ ?_ ?_ abandoned
  · rw [h.workers]
    exact hw.unfailing
  · rw [h.workers]
  · rw [h.workers, h.board]

/-- The one worker that lives makes a move and publishes nothing. -/
theorem Tended.moved {state next : WorkerState} {finished : List Job} (hw : Tended path w)
    (hlone : Lone w.server.workers k) (hstate : w.server.workers[k]? = some state)
    (hsink : s.sink = w.server.sink) (hworkers : s.workers = w.server.workers.set k next)
    (hunfailing : ∀ job, next ≠ .failing job)
    (hrecords : w.finished ++ reported state = finished ++ reported next)
    (horder : w.finished ++ inHand state ++ jobs w.server.board.queue =
      finished ++ inHand next ++ jobs s.board.queue) :
    Tended path ⟨{ w.after s with finished := finished }, w.abandoned⟩ := by
  refine hw.silent hsink ?_ ?_ ?_ w.abandoned
  · intro other hother
    rw [hworkers] at hother
    rcases List.mem_or_eq_of_mem_set hother with hold | rfl
    · exact hw.unfailing other hold
    · exact hunfailing
  · rw [hworkers, hlone.flatMap rfl hstate, hlone.flatMap_set rfl hstate]
    exact hrecords
  · rw [hworkers, hlone.flatMap rfl hstate, hlone.flatMap_set rfl hstate]
    exact horder

/-- The one worker that lives ends the work on its job with a record. -/
theorem Tended.concluded {activity : Activity} (hw : Tended path w)
    (hlone : Lone w.server.workers k)
    (hstate : w.server.workers[k]? = some (.working job activity))
    (hc : Concluded w.server k job s) : Tended path ⟨w.after s, w.abandoned⟩ := by
  obtain ⟨record, hsince, hjob⟩ := hc.record
  have hrecords := hw.records
  have horder := hw.order
  rw [hlone.flatMap rfl hstate] at hrecords horder
  refine ⟨hc.numbered, hc.path.trans hw.path, ?_, ?_, ?_⟩
  · intro other hother
    simp only [Watched.after, hc.workers] at hother
    rcases List.mem_or_eq_of_mem_set hother with hold | rfl
    · exact hw.unfailing other hold
    · exact fun _ => WorkerState.noConfusion
  · simp only [Watched.after, hc.workers, hlone.flatMap_set (f := reported) rfl hstate]
    simp_all [reported]
  · simp only [Watched.after, hc.workers, hlone.flatMap_set (f := inHand) rfl hstate,
      hc.board]
    simp_all [inHand, taken]

theorem Attended.lone (hw : Attended w) (hkept : w.abandoned = [])
    (halive : w.server.isAlive k = true) : Lone w.server.workers k := by
  intro i state hik hstate
  refine Decidable.byContradiction fun hliving => ?_
  exact hik (hw.oneLives hkept i k (isAlive_iff.mpr ⟨state, hstate, hliving⟩) halive)

/-- A move of the one worker that lives keeps what was served in order. -/
theorem Tended.moves {state : WorkerState} (hw : Tended path w)
    (hlone : Lone w.server.workers k) (hstate : w.server.workers[k]? = some state)
    (h : Moves w.server k state s) :
    Tended path ⟨{ w.after s with finished := w.finished ++ striking (some state) },
      w.abandoned⟩ := by
  cases h with
  | silent next hsink hset hunfailing hreported htaken =>
    refine hw.moved hlone hstate hsink hset hunfailing ?_ ?_
    · rw [hreported, List.append_assoc]
    · have hjobs := congrArg jobs htaken
      simp only [jobs_append, jobs_map_some] at hjobs
      simp only [List.append_assoc, inHand, hjobs]
  | concluded job activity hworking hc =>
    rw [hworking] at hstate
    simpa [hworking, striking, Watched.after] using hw.concluded hlone hstate hc

theorem Tended.turn {activity : Activity} (hpub : Sink.Publishes path) (hw : Tended path w)
    (hlone : Lone w.server.workers k)
    (hstate : w.server.workers[k]? = some (.working job activity))
    (hmid : Quiet w.server mid) (h : Turn mid k job s) : Tended path ⟨w.after s, w.abandoned⟩ := by
  have hmoves := h.moves hmid.toSteady activity hw.numbered (hw.path ▸ hpub)
  simpa [striking, Watched.after] using hw.moves hlone hstate hmoves

theorem Tended.work (hpub : Sink.Publishes path) (hw : Tended path w)
    (hlone : Lone w.server.workers k) (h : w.server.stepWorker k = .moved s) :
    Tended path ⟨{ w.after s with finished := w.finished ++ striking w.server.workers[k]? },
      w.abandoned⟩ := by
  obtain ⟨state, hstate, -⟩ := stepWorker_cases h
  have hunfailing := hw.unfailing state (List.mem_of_getElem? hstate)
  rw [hstate]
  exact hw.moves hlone hstate
    (stepWorker_moves hw.numbered (hw.path ▸ hpub) hstate hunfailing h)

theorem Tended.start (hw : Tended path w) :
    Tended path ⟨w.after w.server.start.1, w.abandoned⟩ := by
  rcases start_cases w.server with ⟨-, hsame⟩ | ⟨-, hnew⟩
  · rw [hsame]
    exact hw.steady (.refl _) _
  · rcases hnew with ⟨hquiet, -⟩ | ⟨mid, hmid, -, hnow⟩
    · exact hw.steady hquiet.toSteady _
    · rw [hnow]
      refine hw.silent ?_ ?_ ?_ ?_ _
      · exact hmid.sink
      · intro state hstate
        rw [hmid.workers] at hstate
        rcases List.mem_append.mp hstate with hold | hnew
        · exact hw.unfailing state hold
        · rw [List.mem_singleton.mp hnew]
          exact fun _ => WorkerState.noConfusion
      · simp [hmid.workers, reported]
      · simp [hmid.workers, hmid.board, inHand, taken, jobs]

theorem Tended.call {seen : Watched} (hw : Tended path w) (h : Called w.toWatched seen) :
    Tended path ⟨seen, w.abandoned⟩ := by
  cases h with
  | enter job =>
    exact ⟨hw.numbered, hw.path, hw.unfailing, hw.records, by rw [queue_enter]; exact hw.order⟩
  | put job hentered =>
    refine ⟨hw.numbered, hw.path, hw.unfailing, hw.records, ?_⟩
    simp [hw.order, Board.put]
  | askStop =>
    refine ⟨hw.numbered, hw.path, hw.unfailing, hw.records, ?_⟩
    simp [hw.order, Board.putStop]
  | aside s hquiet => exact hw.steady hquiet.toSteady _

/-- Every step of a session keeps what was served in order, unless a worker is given up on. -/
theorem Tended.step (hpub : Sink.Publishes path) (hattended : Attended w) (hw : Tended path w)
    (hkept : w.abandoned = []) (h : Step w w') : Tended path w' := by
  cases h with
  | start => exact hw.start
  | letGo => exact hw.steady (s := { w.server with active := none }) ⟨rfl, rfl, rfl⟩ _
  | call seen hcall => exact hw.call hcall
  | work k s hmoved => exact hw.work hpub (hattended.lone hkept (stepWorker_actsOn hmoved).2) hmoved
  | turn k job activity mid s hworking hmid hturn =>
    have halive : w.server.isAlive k = true :=
      isAlive_iff.mpr ⟨_, hworking, WorkerState.noConfusion⟩
    exact hw.turn hpub (hattended.lone hkept halive) hworking hmid hturn

/-- A worker that was given up on stays so. -/
theorem Step.abandoned (h : Step w w') (hkept : w'.abandoned = []) : w.abandoned = [] := by
  cases h with
  | letGo => exact (List.append_eq_nil_iff.mp hkept).1
  | _ => exact hkept

theorem Tended.run (hpub : Sink.Publishes path) (hattended : Attended w) (hw : Tended path w)
    (h : Run w w') (hkept : w'.abandoned = []) : Tended path w' := by
  induction h with
  | refl => exact hw
  | tail hrun hstep ih =>
    have hkept' := hstep.abandoned hkept
    exact (ih hkept').step hpub (hattended.run hrun) hkept' hstep

end Session

/-- One worker at a time serves the queue, and no job overtakes another one. -/
structure Alone (w : Session) : Prop where
  one : OneLives w.server
  /-- The jobs that were put in the queue were struck off, are in hand, or wait, in this order. -/
  order : jobs w.puts =
    w.finished ++ w.server.workers.flatMap inHand ++ jobs w.server.board.queue
  /-- All jobs that were put before one in hand were struck off. -/
  begun : ∀ job ∈ w.server.workers.flatMap inHand,
    jobs w.puts = w.finished ++ job :: jobs w.server.board.queue
  /-- There is one record for each job that was struck off, and for one that is about to be. -/
  records : w.published.map (·.result.jobId) =
    (w.finished ++ w.server.workers.flatMap reported).map (·.id)

namespace Session

variable {w w' : Session}

theorem Tended.alone (hattended : Attended w) (hkept : w.abandoned = []) (hw : Tended path w) :
    Alone w where
  one := hattended.oneLives hkept
  order := hw.order
  records := hw.records
  begun := by
    intro job hjob
    obtain ⟨state, hstate, hmem⟩ := List.mem_flatMap.mp hjob
    obtain ⟨k, hk⟩ := List.mem_iff_getElem?.mp hstate
    have hliving : state ≠ .stopped := by
      rintro rfl
      simp [inHand, taken, jobs] at hmem
    have hlone := hattended.lone hkept (isAlive_iff.mpr ⟨state, hk, hliving⟩)
    have hhand : inHand state = [job] := by
      cases state <;> simp_all [inHand, taken, jobs]
    have horder := hw.order
    rw [hlone.flatMap rfl hk, hhand] at horder
    simpa using horder

theorem fresh_tended (hfresh : Fresh s) : Tended s.sink.path ⟨{ server := s }, []⟩ where
  numbered := by simp [Sink.Numbered, hfresh.records]
  path := rfl
  unfailing := by simp [hfresh.workers]
  records := by simp [hfresh.workers]
  order := by simp [hfresh.workers, hfresh.queue, jobs]

end Session

/-- Whatever callers and workers do, a worker that lives is the one started last, or a caller
lost patience with it and let it go. If none was let go like this, one worker at a time serves
the queue and in order; but a stop and a start after it leave one worker only if the wait for
the worker to stop was long enough. -/
theorem served_alone_unless_abandoned {w : Session} (hfresh : Fresh s)
    (hpub : Sink.Publishes s.sink.path) (hrun : Session.Run ⟨{ server := s }, []⟩ w) :
    (∀ k, w.server.isAlive k = true → w.server.active = some k ∨ k ∈ w.abandoned) ∧
    (w.abandoned = [] → Alone w ∧
      ∀ worker patience, w.server.active = some worker →
        (w.server.stop patience).start.2 = .ok () →
        (OneLives (w.server.stop patience).start.1 ↔
          (w.server.stop patience).isAlive worker = false)) := by
  have hattended := (Session.fresh_attended hfresh).run hrun
  refine ⟨hattended, fun hkept => ⟨?_, ?_⟩⟩
  · exact ((Session.fresh_tended hfresh).run hpub (Session.fresh_attended hfresh) hrun
      hkept).alone hattended hkept
  · exact fun worker patience hactive hstart => Session.restart_iff hattended hkept hactive hstart

/-- Who waits no time for a worker that leaves the work directory alone for a while gives it up. -/
theorem stop_settling {until_ : Nat} (hactive : s.active = some 0)
    (hworkers : s.workers = [.working job (.settling until_)])
    (hlater : s.host.machine.clock < until_) :
    s.stop (some 0) = { s with board := s.board.putStop, active := none } := by
  have hearly : ¬ until_ ≤ s.host.machine.clock := Nat.not_le.mpr hlater
  have hblocked : stepFirst { s with board := s.board.putStop } 0 none [] =
      .blocked (some until_) [] := by
    rw [stepFirst, if_pos (by simp [hworkers])]
    simp only [stepWorker, hworkers, List.getElem?_cons_zero, stepActivity, if_neg hearly]
    rw [stepFirst, if_neg (by simp)]
    rfl
  have halive : isAlive { s with board := s.board.putStop } 0 = true := by
    simp [isAlive, hworkers]
  have hwait : workUntil { s with board := s.board.putStop } (fun s => !s.isAlive 0) (some 0) =
      { s with board := s.board.putStop } := by
    obtain ⟨fuel, hfuel⟩ : ∃ fuel,
        moveBudget { s with board := s.board.putStop } = fuel + 1 :=
      Nat.exists_eq_add_one.mpr (Nat.add_pos_left (by decide) _)
    rw [workUntil, hfuel, workFor]
    simp [halive, hblocked]
  unfold stop
  split
  · rename_i hnone
    cases hactive.symm.trans hnone
  · rename_i worker hworker
    cases hactive.symm.trans hworker
    dsimp only
    rw [hwait]

open Success in
/-- A work directory that can be cleaned is then left alone for a while. -/
theorem beginClean_eq (k : Nat) (job : Job)
    (h : (outcome s.workspace.clean s.host.machine.tree).1 = .ok ()) :
    ∃ host, s.beginClean k job = { s with
      host := host
      workers := s.workers.set k (.working job
        (.settling (s.host.machine.clock + s.settings.cleanSettleMs))) } := by
  unfold beginClean
  rw [act_files, h]
  exact ⟨_, rfl⟩

def tidyServer : Server :=
  { idleServer with workspace := ⟨⟨.root, ["work"]⟩, []⟩ }

theorem walk_tidyServer :
    FileTree.walk ⟨[]⟩ [] false ⟨.root, ["work"]⟩ = .ok (.vacant [] "work") := by
  simp only [FileTree.walk, FileTree.walkFrom]
  rfl

open Success in
theorem ensure_tidyServer :
    (outcome tidyServer.workspace.ensure tidyServer.host.machine.tree).1 =
      .ok ⟨.root, ["work"]⟩ := by
  have hmake : FileTree.makeDirectories ⟨[]⟩ [] ⟨.root, ["work"]⟩ =
      (⟨[(["work"], .directory)]⟩, none) := by
    rw [FileTree.makeDirectories]
    simp [FileTree.makeDirectory, walk_tidyServer, FileTree.insert]
  simp only [Workspace.ensure, Workspace.makeDirectory, tidyServer, idleServer, Machine.start,
    outcome_bind, outcome_get, outcome_set, outcome_pure, hmake]

open Success in
theorem clean_tidyServer :
    (outcome tidyServer.workspace.clean tidyServer.host.machine.tree).1 = .ok () := by
  have hremove : FileTree.removeTree ⟨[]⟩ [] ⟨.root, ["work"]⟩ =
      .error (.at_ .noEntry (Path.toString ⟨.root, ["work"]⟩)) := by
    simp only [FileTree.removeTree, walk_tidyServer]
  have hensure := ensure_tidyServer
  simp only [Workspace.clean, tidyServer, idleServer, Machine.start, outcome_bind, outcome_get,
    hremove] at hensure ⊢
  rw [if_neg (by decide), outcome_bind]
  generalize outcome (Workspace.ensure ⟨⟨.root, ["work"]⟩, []⟩) ⟨[]⟩ = made at hensure
  obtain ⟨result, tree⟩ := made
  cases hensure
  rfl

def slowJob : Job := ⟨"slow", .clean, 2⟩

def settlingServer : Server :=
  { tidyServer with
    board := ⟨[some emptyJob], [("slow", slowJob), ("first", emptyJob)], some slowJob⟩
    workers := [.working slowJob (.settling 300)]
    active := some 0 }

def settlingSession : Session :=
  ⟨⟨settlingServer, [], [some slowJob, some emptyJob], [], []⟩, []⟩

theorem settlingSession_run : Session.Run ⟨{ server := tidyServer }, []⟩ settlingSession := by
  have h := Relation.ReflTransGen.refl (r := Session.Step)
    (a := ⟨{ server := tidyServer }, []⟩)
  have h := h.tail (.call _ (.enter slowJob))
  have h := h.tail (.call _ (.put slowJob (List.mem_singleton.mpr rfl)))
  have h := h.tail (.call _ (.enter emptyJob))
  have h := h.tail (.call _ (.put emptyJob (List.mem_singleton.mpr rfl)))
  obtain ⟨host, hstart⟩ := start_eq (s := { tidyServer with
    board := (((Board.enter {} slowJob).put slowJob).enter emptyJob).put emptyJob }) rfl
    ensure_tidyServer
  have h := h.tail .start
  change Session.Run _ ⟨Watched.after _ (start { tidyServer with
    board := (((Board.enter {} slowJob).put slowJob).enter emptyJob).put emptyJob }).1, []⟩ at h
  rw [hstart] at h
  -- Others may change the files at any time; here the work directory is missing again.
  have h := h.tail (.call _ (.aside _ (quiet_host _ tidyServer.host)))
  have h := h.tail (.work 0 _ rfl)
  have h := h.tail (.work 0 _ rfl)
  obtain ⟨host', hclean⟩ := beginClean_eq
    (s := { settlingServer with workers := [.working slowJob .starting] }) 0 slowJob
    clean_tidyServer
  have h := h.tail (.work 0 _ (congrArg Move.moved hclean))
  exact h.tail (.call _ (.aside _ (quiet_host _ tidyServer.host)))

theorem served_alone_unless_abandoned_slowJob : Fresh tidyServer ∧
    Sink.Publishes tidyServer.sink.path ∧
    ∃ w, Session.Run ⟨{ server := tidyServer }, []⟩ w ∧ w.abandoned = [] ∧ Alone w ∧
      ¬ OneLives (w.server.stop (some 0)).start.1 ∧
      ∃ w', Session.Run w w' ∧ w'.puts = [some slowJob, some emptyJob, none] ∧
        w'.finished = [] ∧ w'.published.map (·.result.jobId) = ["first"] := by
  have hfresh : Fresh tidyServer := ⟨rfl, rfl, rfl⟩
  obtain ⟨halone, hrestart⟩ := (served_alone_unless_abandoned hfresh Sink.publishes_none
    settlingSession_run).2 rfl
  have hstop : settlingServer.stop (some 0) =
      { settlingServer with board := settlingServer.board.putStop, active := none } :=
    stop_settling rfl rfl (by decide)
  obtain ⟨host, hstart⟩ := start_eq
    (s := { settlingServer with board := settlingServer.board.putStop, active := none }) rfl
    ensure_tidyServer
  have hok : (settlingServer.stop (some 0)).start.2 = .ok () := by rw [hstop, hstart]
  have halive : (settlingServer.stop (some 0)).isAlive 0 = true := by rw [hstop]; rfl
  refine ⟨hfresh, Sink.publishes_none, _, settlingSession_run, rfl, halone, fun hone => ?_, ?_⟩
  · exact Bool.noConfusion (halive.symm.trans ((hrestart 0 (some 0) rfl hok).mp hone))
  · have h := Relation.ReflTransGen.refl (r := Session.Step) (a := settlingSession)
    have h := h.tail (.call _ .askStop)
    have h := h.tail .letGo
    have h := h.tail .start
    change Session.Run _ ⟨Watched.after _ (start { settlingServer with
      board := settlingServer.board.putStop, active := none }).1, _⟩ at h
    rw [hstart] at h
    -- The second worker takes the other job, begins it and fails.
    have h := h.tail (.work 1 _ rfl)
    have h := h.tail (.work 1 _ rfl)
    have h := h.tail (.work 1 _ rfl)
    exact ⟨_, h, rfl, rfl, rfl⟩

end SnippetRunner.Server
