import SnippetRunner.Network.Script
import SnippetRunner.Proofs.Server.Schedule

/-!
The order in which one worker serves. Whatever was put in the queue is, in this order, struck
off, in the hand of the worker or still in the queue; and the records that were published are,
in the same order, those of the jobs that were struck off or are about to be. The invariant
says this of every moment of every schedule; that the worker never dies is part of it.
-/
namespace SnippetRunner.Server

variable {s s' mid : Server} {worker : Nat} {job : Job} {path : Option Path} {w w' : Watched}

/-- What a worker took from the queue and did not strike off so far. -/
def taken : WorkerState → List (Option Job)
  | .waiting => []
  | .holding job => [some job]
  | .working job _ => [some job]
  | .closing job => [some job]
  | .failing job => [some job]
  | .stopped => [none]

def reported : WorkerState → List Job
  | .closing job => [job]
  | _ => []

structure Concluded (s : Server) (worker : Nat) (job : Job) (s' : Server) : Prop where
  board : s'.board = s.board
  workers : s'.workers = s.workers.set worker (.closing job)
  numbered : s'.sink.Numbered
  path : s'.sink.path = s.sink.path
  record : ∃ record, s'.sink.since s.sink.seq = [record] ∧ record.result.jobId = job.id

theorem Steady.concluded (h : Steady s mid) (hc : Concluded mid worker job s') :
    Concluded s worker job s' where
  board := hc.board.trans h.board
  workers := by rw [hc.workers, h.workers]
  numbered := hc.numbered
  path := by rw [hc.path, h.sink]
  record := by
    rw [← h.sink]
    exact hc.record

/-- A result that is published concludes its job. -/
theorem publish_concluded (worker : Nat) {result : JobResult} (hnum : s.sink.Numbered)
    (hpub : Sink.Publishes s.sink.path) (hjob : result.jobId = job.id) :
    ∃ record, (s.publish result).2 = .ok record ∧
      Concluded s worker job ((s.publish result).1.setWorker worker (.closing job)) := by
  obtain ⟨record, hok⟩ := hpub s.sink s.host result rfl
  obtain ⟨hnum', hpath, hsince, hresult⟩ := Sink.publish_ok hnum hok
  refine ⟨record, hok, ⟨rfl, rfl, hnum', hpath, record, hsince, ?_⟩⟩
  rw [hresult, hjob]

theorem conclude_concluded {result : JobResult} (hnum : s.sink.Numbered)
    (hpub : Sink.Publishes s.sink.path) (hjob : result.jobId = job.id) :
    Concluded s worker job (s.conclude worker job result) := by
  have hrelease := steady_release s worker
  rw [← hrelease.sink] at hnum hpub
  obtain ⟨record, hok, hc⟩ := publish_concluded worker hnum hpub hjob
  have hconclude : s.conclude worker job result =
      ((s.release worker).publish result).1.setWorker worker (.closing job) := by
    unfold conclude
    split
    · rename_i published _ heq
      rw [heq]
    · rename_i heq
      rw [heq] at hok
      cases hok
  rw [hconclude]
  exact hrelease.concluded hc

theorem concludeFailure_concluded (failure : Failure) (hnum : s.sink.Numbered)
    (hpub : Sink.Publishes s.sink.path) :
    Concluded s worker job (s.concludeFailure worker job failure) := by
  unfold concludeFailure
  dsimp only
  split
  · exact (steady_note s _ _).concluded (conclude_concluded hnum hpub rfl)
  · exact (steady_note s _ _).concluded (conclude_concluded hnum hpub rfl)

theorem concludeRun_concluded (report : RunReport) (hnum : s.sink.Numbered)
    (hpub : Sink.Publishes s.sink.path) :
    Concluded s worker job (s.concludeRun worker job report) :=
  (steady_note s _ _).concluded (conclude_concluded hnum hpub rfl)

theorem concludeClean_concluded (hnum : s.sink.Numbered) (hpub : Sink.Publishes s.sink.path) :
    Concluded s worker job (s.concludeClean worker job) := by
  have hrelease := steady_release s worker
  have hjob : ({ jobId := job.id, kind := "clean", status := "cleaned" } : JobResult).jobId =
      job.id := rfl
  rw [← hrelease.sink] at hnum hpub
  obtain ⟨record, hok, hc⟩ := publish_concluded worker hnum hpub hjob
  unfold concludeClean
  split
  · rename_i heq
    rw [heq] at hc
    exact hrelease.concluded hc
  · rename_i heq
    rw [heq] at hok
    cases hok

/-- What a move of a worker comes to: it publishes nothing and only takes from the queue or
strikes off a job, or it ends the work on its job with one record. -/
inductive Moves (s : Server) (worker : Nat) (state : WorkerState) (s' : Server) : Prop
  | silent (next : WorkerState) : s'.sink = s.sink → s'.workers = s.workers.set worker next →
    (∀ job, next ≠ .failing job) →
    reported state = striking (some state) ++ reported next →
    taken state ++ s.board.queue =
      (striking (some state)).map some ++ taken next ++ s'.board.queue →
    Moves s worker state s'
  | concluded (job : Job) (activity : Activity) : state = .working job activity →
    Concluded s worker job s' → Moves s worker state s'

theorem Turn.moves (h : Turn mid worker job s') (hmid : Steady s mid) (activity : Activity)
    (hnum : s.sink.Numbered) (hpub : Sink.Publishes s.sink.path) :
    Moves s worker (.working job activity) s' := by
  have hnum' : mid.sink.Numbered := by rwa [hmid.sink]
  have hpub' : Sink.Publishes mid.sink.path := by rwa [hmid.sink]
  cases h with
  | proceeded next =>
    refine .silent (.working job next) hmid.sink ?_ (fun _ => WorkerState.noConfusion) rfl ?_
    · simp [setWorker, hmid.workers]
    · simp [taken, striking, setWorker, hmid.board]
  | failed failure =>
    exact .concluded job activity rfl
      (hmid.concluded (concludeFailure_concluded failure hnum' hpub'))
  | ran report =>
    exact .concluded job activity rfl (hmid.concluded (concludeRun_concluded report hnum' hpub'))
  | cleaned =>
    exact .concluded job activity rfl (hmid.concluded (concludeClean_concluded hnum' hpub'))

/-- A worker takes from the queue, works, or strikes off. -/
theorem stepWorker_moves {state : WorkerState} (hnum : s.sink.Numbered)
    (hpub : Sink.Publishes s.sink.path) (hstate : s.workers[worker]? = some state)
    (hunfailing : ∀ job, state ≠ .failing job) (h : s.stepWorker worker = .moved s') :
    Moves s worker state s' := by
  cases stepWorker_move hstate h with
  | takes item rest hqueue =>
    cases item with
    | none =>
      refine .silent .stopped rfl rfl (fun _ => WorkerState.noConfusion) rfl ?_
      simp [taken, striking, hqueue, setWorker]
    | some job =>
      refine .silent (.holding job) rfl rfl (fun _ => WorkerState.noConfusion) rfl ?_
      simp [taken, striking, hqueue, setWorker]
  | begins job =>
    exact .silent (.working job .starting) rfl rfl (fun _ => WorkerState.noConfusion) rfl rfl
  | works job activity s' hactivity =>
    obtain ⟨mid, hmid, hturn⟩ := stepActivity_turn hactivity
    exact hturn.moves hmid.toSteady activity hnum hpub
  | closes job => exact .silent .waiting rfl rfl (fun _ => WorkerState.noConfusion) rfl rfl
  | fails job => exact absurd rfl (hunfailing job)

structure Served (path : Option Path) (w : Watched) : Prop where
  numbered : w.server.sink.Numbered
  path : w.server.sink.path = path
  lone : w.server.workers.length ≤ 1
  alive : ∀ state ∈ w.server.workers, ∀ job, state ≠ .failing job
  records : w.published.map (·.result.jobId) =
    (w.finished ++ w.server.workers.flatMap reported).map (·.id)
  order : w.puts =
    w.finished.map some ++ w.server.workers.flatMap taken ++ w.server.board.queue

/-- A move that publishes nothing, by what it does to the workers and the queue. -/
theorem Served.quiet {finished : List Job} (hw : Served path w)
    (hsink : s.sink = w.server.sink) (hlone : s.workers.length ≤ 1)
    (halive : ∀ state ∈ s.workers, ∀ job, state ≠ .failing job)
    (hrecords : w.finished ++ w.server.workers.flatMap reported =
      finished ++ s.workers.flatMap reported)
    (horder : w.finished.map some ++ w.server.workers.flatMap taken ++ w.server.board.queue =
      finished.map some ++ s.workers.flatMap taken ++ s.board.queue) :
    Served path { w.after s with finished := finished } where
  numbered := by
    simp only [Watched.after, hsink]
    exact hw.numbered
  path := by
    simp only [Watched.after, hsink]
    exact hw.path
  lone := hlone
  alive := halive
  records := by
    have hsince : s.sink.since w.server.sink.seq = [] := by
      rw [hsink]
      exact Sink.since_seq hw.numbered
    have hold := hw.records
    rw [hrecords] at hold
    simpa only [Watched.after, hsince, List.append_nil] using hold
  order := hw.order.trans horder

theorem Served.steady (hw : Served path w) (h : Steady w.server s) : Served path (w.after s) := by
  refine hw.quiet h.sink ?_ ?_ ?_ ?_
  · rw [h.workers]
    exact hw.lone
  · rw [h.workers]
    exact hw.alive
  · rw [h.workers]
  · rw [h.workers, h.board]

theorem Served.moved {state : WorkerState} {finished : List Job} (hw : Served path w)
    (hsink : s.sink = w.server.sink) (hworkers : s.workers = [state])
    (halive : ∀ job, state ≠ .failing job)
    (hrecords : w.finished ++ w.server.workers.flatMap reported = finished ++ reported state)
    (horder : w.finished.map some ++ w.server.workers.flatMap taken ++ w.server.board.queue =
      finished.map some ++ taken state ++ s.board.queue) :
    Served path { w.after s with finished := finished } := by
  refine hw.quiet hsink ?_ ?_ ?_ ?_
  · simp [hworkers]
  · simpa [hworkers] using halive
  · simpa [hworkers] using hrecords
  · simpa [hworkers] using horder

theorem lone_eq {workers : List WorkerState} {state : WorkerState} (hlone : workers.length ≤ 1)
    (h : workers[0]? = some state) : workers = [state] := by
  cases workers with
  | nil => cases h
  | cons first rest =>
    have hrest : rest = [] := by
      rw [List.length_cons] at hlone
      exact List.eq_nil_of_length_eq_zero (by omega)
    cases h
    rw [hrest]

theorem Served.concluded {activity : Activity} (hw : Served path w)
    (hworkers : w.server.workers = [.working job activity]) (hc : Concluded w.server 0 job s) :
    Served path (w.after s) := by
  obtain ⟨record, hsince, hjob⟩ := hc.record
  have hnow : s.workers = [.closing job] := by rw [hc.workers, hworkers]; rfl
  have hrecords := hw.records
  have horder := hw.order
  rw [hworkers] at hrecords horder
  refine ⟨hc.numbered, hc.path.trans hw.path, ?_, ?_, ?_, ?_⟩
  · simp [Watched.after, hnow]
  · simp [Watched.after, hnow]
  · simp_all [Watched.after, reported]
  · simp_all [Watched.after, taken, hc.board]

/-- A move of the worker keeps what was served in order. -/
theorem Served.moves {state : WorkerState} (hw : Served path w)
    (hstate : w.server.workers[0]? = some state) (h : Moves w.server 0 state s) :
    Served path { w.after s with finished := w.finished ++ striking (some state) } := by
  have hworkers := lone_eq hw.lone hstate
  cases h with
  | silent next hsink hset hunfailing hreported htaken =>
    refine hw.moved hsink (by rw [hset, hworkers]; rfl) hunfailing ?_ ?_
    · simp [hworkers, hreported]
    · simp [hworkers, htaken]
  | concluded job activity hworking hc =>
    rw [hworking] at hworkers
    simpa [hworking, striking, Watched.after] using hw.concluded hworkers hc

theorem Served.turn {activity : Activity} (hpub : Sink.Publishes path) (hw : Served path w)
    (hworking : w.server.workers[0]? = some (.working job activity))
    (hmid : Steady w.server mid) (h : Turn mid 0 job s) : Served path (w.after s) := by
  have hmoves := h.moves hmid activity hw.numbered (hw.path ▸ hpub)
  simpa [striking, Watched.after] using hw.moves hworking hmoves

theorem Served.start (hw : Served path w)
    (hone : w.server.workers = [] ∨ w.server.active.any w.server.isAlive) :
    Served path (w.after w.server.start.1) := by
  have hact := steady_act w.server (Act.files w.server.workspace.ensure)
  unfold Server.start
  split
  · exact hw.steady (.refl _)
  · rename_i hgone
    have hnone := hone.resolve_right hgone
    split
    · rename_i s failure heq
      rw [heq] at hact
      exact hw.steady hact
    · rename_i s made heq
      rw [heq] at hact
      have hnow : s.workers ++ [WorkerState.waiting] = [.waiting] := by
        rw [hact.workers, hnone]
        rfl
      refine hw.moved hact.sink hnow (fun _ => WorkerState.noConfusion) ?_ ?_
      · simp [hnone, reported]
      · simp [hnone, taken, note, ← hact.board]

theorem Served.work (hpub : Sink.Publishes path) (hw : Served path w)
    (h : w.server.stepWorker 0 = .moved s) :
    Served path { w.after s with
      finished := w.finished ++ striking w.server.workers[0]? } := by
  obtain ⟨state, hstate, -⟩ := stepWorker_cases h
  have hunfailing := hw.alive state (List.mem_of_getElem? hstate)
  rw [hstate]
  exact hw.moves hstate (stepWorker_moves hw.numbered (hw.path ▸ hpub) hstate hunfailing h)

theorem Served.put {board : Board} {entered : List Job} (item : Option Job)
    (hw : Served path w) (hqueue : board.queue = w.server.board.queue ++ [item]) :
    Served path { w with
      server := { w.server with board := board }
      entered := entered
      puts := w.puts ++ [item] } := by
  refine ⟨hw.numbered, hw.path, hw.lone, hw.alive, hw.records, ?_⟩
  simp only [hw.order, hqueue, List.append_assoc]

/-- Every step of a schedule keeps what was served in order. -/
theorem Served.step (hpub : Sink.Publishes path) (hw : Served path w) (h : Step w w') :
    Served path w' := by
  cases h with
  | start hone => exact hw.start hone
  | enter job =>
    exact ⟨hw.numbered, hw.path, hw.lone, hw.alive, hw.records, by rw [queue_enter]; exact hw.order⟩
  | put job hentered => exact hw.put (some job) rfl
  | putStop => exact hw.put none rfl
  | cancel id => exact hw.steady (steady_cancel _ id)
  | cancelAll close => exact hw.steady (steady_cancelAll _ close)
  | aside s hsteady => exact hw.steady hsteady
  | work s hmoved => exact hw.work hpub hmoved
  | turn job activity mid s hworking hmid hturn => exact hw.turn hpub hworking hmid hturn

theorem Served.run (hpub : Sink.Publishes path) (hw : Served path w) (h : Run w w') :
    Served path w' := by
  induction h with
  | refl => exact hw
  | tail _ hstep ih => exact ih.step hpub hstep

structure Fresh (s : Server) : Prop where
  workers : s.workers = []
  queue : s.board.queue = []
  records : s.sink.records = []

theorem Fresh.served (h : Fresh s) : Served s.sink.path { server := s } where
  numbered := by simp [Sink.Numbered, h.records]
  path := rfl
  lone := by simp [h.workers]
  alive := by simp [h.workers]
  records := by simp [h.workers]
  order := by simp [h.workers, h.queue]

/-- Jobs are served in the order in which they were put in the queue. -/
structure InOrder (w : Watched) : Prop where
  /-- No job makes the worker die; it stops if it was asked to. -/
  alive : ∀ state ∈ w.server.workers,
    (∀ job, state ≠ .failing job) ∧ (state = .stopped → none ∈ w.puts)
  /-- What was put in the queue was struck off, is in hand, or waits, in this order. -/
  order : w.puts =
    w.finished.map some ++ w.server.workers.flatMap taken ++ w.server.board.queue
  /-- There is one record for each job that was struck off, and for one that is about to be. -/
  records : w.published.map (·.result.jobId) =
    (w.finished ++ w.server.workers.flatMap reported).map (·.id)
  /-- A worker that stopped left no job behind that was put before the request to stop. -/
  drained : .stopped ∈ w.server.workers → ∀ before after,
    w.puts = before.map some ++ none :: after →
      w.finished = before ∧ w.published.map (·.result.jobId) = before.map (·.id)

theorem map_some_prefix {before done : List Job} {after rest : List (Option Job)}
    (h : done.map some ++ none :: rest = before.map some ++ none :: after) : done = before := by
  induction done generalizing before with
  | nil =>
    cases before with
    | nil => rfl
    | cons job before => simp at h
  | cons job done ih =>
    cases before with
    | nil => simp at h
    | cons job' before =>
      simp only [List.map_cons, List.cons_append, List.cons.injEq, Option.some.injEq] at h
      rw [h.1, ih h.2]

theorem Served.inOrder (hw : Served path w) : InOrder w where
  alive := by
    intro state hstate
    refine ⟨hw.alive state hstate, ?_⟩
    rintro rfl
    rw [hw.order]
    have hgap : none ∈ w.server.workers.flatMap taken :=
      List.mem_flatMap.mpr ⟨.stopped, hstate, List.mem_singleton.mpr rfl⟩
    exact List.mem_append_left _ (List.mem_append_right _ hgap)
  order := hw.order
  records := hw.records
  drained := by
    intro hstopped before after hputs
    have hworkers : w.server.workers = [.stopped] := by
      obtain ⟨state, hstate⟩ := List.length_eq_one_iff.mp
        (Nat.le_antisymm hw.lone (List.length_pos_of_mem hstopped))
      rw [hstate] at hstopped ⊢
      rw [List.mem_singleton.mp hstopped]
    have horder := hw.order
    have hrecords := hw.records
    simp only [hworkers, List.flatMap_singleton, taken, reported, List.append_nil,
      List.append_assoc, List.singleton_append] at horder hrecords
    have hdone : w.finished = before := map_some_prefix (horder.symm.trans hputs)
    exact ⟨hdone, by rw [hrecords, hdone]⟩

/-- Whatever the schedule and whatever comes of the jobs, one worker serves them in order, as
long as no record is refused. -/
theorem served_in_order (hfresh : Fresh s) (hpub : Sink.Publishes s.sink.path)
    (hrun : Run { server := s } w) : InOrder w :=
  (hfresh.served.run hpub hrun).inOrder

/-- A server without files, without network and without an output file. -/
def idleServer : Server where
  settings := { home := ⟨.root, []⟩, workDir := ⟨.root, []⟩ }
  catalog := ⟨[], [], []⟩
  delegate := .interpreters .standard
  workspace := ⟨⟨.root, []⟩, []⟩
  engine := {}
  limits := {}
  host := { machine := .start ⟨[]⟩, cwd := [], env := [], wire := .down }
  sink := { path := none, history := 2 }

def emptyJob : Job := ⟨"first", .run none, 1⟩

def emptyJobBoard : Board := ((Board.enter {} emptyJob).put emptyJob).putStop

open Success in
theorem ensure_idleServer :
    outcome idleServer.workspace.ensure idleServer.host.machine.tree =
      (.ok ⟨.root, []⟩, idleServer.host.machine.tree) := by
  have hwalk (follow : Bool) :
      FileTree.walk ⟨[]⟩ [] follow ⟨.root, []⟩ = .ok (.existing [] .directory) := by
    simp only [FileTree.walk, FileTree.walkFrom]
    rfl
  have hdir : FileTree.isDirectory ⟨[]⟩ [] ⟨.root, []⟩ = .ok true := by
    simp only [FileTree.isDirectory, FileTree.ask, FileTree.stat, hwalk]
    rfl
  have hmake : FileTree.makeDirectories ⟨[]⟩ [] ⟨.root, []⟩ = (⟨[]⟩, none) := by
    rw [FileTree.makeDirectories]
    simp [FileTree.makeDirectory, hwalk, FileTree.settleMake, hdir]
  simp only [Workspace.ensure, Workspace.makeDirectory, idleServer, Machine.start, outcome_bind,
    outcome_get, outcome_set, outcome_pure, hmake]

theorem served_in_order_emptyJob : Fresh idleServer ∧ Sink.Publishes idleServer.sink.path ∧
    ∃ w, Run { server := idleServer } w ∧ InOrder w ∧
      .stopped ∈ w.server.workers ∧ w.published.map (·.result.jobId) = ["first"] := by
  have hfresh : Fresh idleServer := ⟨rfl, rfl, rfl⟩
  obtain ⟨host, hstart⟩ :=
    start_eq (s := { idleServer with board := emptyJobBoard }) rfl
      (congrArg Prod.fst ensure_idleServer)
  have h := Relation.ReflTransGen.refl (r := Step) (a := { server := idleServer })
  have h := h.tail (.enter emptyJob)
  have h := h.tail (.put emptyJob (List.mem_singleton.mpr rfl))
  have h := h.tail .putStop
  have h := h.tail (.start (.inl rfl))
  change Run _ (Watched.after _ (start { idleServer with board := emptyJobBoard }).1) at h
  rw [hstart] at h
  -- The worker takes the job, begins it, fails, strikes it off and takes the request to stop.
  have h := h.tail (.work _ rfl)
  have h := h.tail (.work _ rfl)
  have h := h.tail (.work _ rfl)
  have h := h.tail (.work _ rfl)
  have h := h.tail (.work _ rfl)
  exact ⟨hfresh, Sink.publishes_none, _, h, served_in_order hfresh Sink.publishes_none h,
    List.mem_singleton.mpr rfl, rfl⟩

end SnippetRunner.Server
