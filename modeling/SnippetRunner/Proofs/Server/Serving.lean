import Mathlib.Data.Set.List
import SnippetRunner.Proofs.Machine.Numbering
import SnippetRunner.Proofs.Server.Order

/-!
How a server works by itself. Its moves, and the time that passes between them, are a schedule
like any other, so that waiting for a server and stopping it keep the order in which it serves.
A server that was stopped has served every job that was put in its queue.
-/
namespace SnippetRunner.Server

open Success

variable {s s' : Server} {path : Option Path} {w : Watched}

theorem stepFirst_lone (hlone : s.workers.length ≤ 1) (h : s.stepFirst 0 none [] = .moved s') :
    s.stepWorker 0 = .moved s' := by
  rw [stepFirst] at h
  split at h
  · cases hstep : s.stepWorker 0 with
    | moved mid => simpa [hstep] using h
    | blocked wake children =>
      have hend : ¬ 0 + 1 < s.workers.length := by omega
      simp only [hstep] at h
      rw [stepFirst, if_neg hend] at h
      cases h
  · cases h

/-- Working for a while is a schedule in which nothing is submitted. -/
theorem workFor_run (hpub : Sink.Publishes path) (fuel : Nat) (goal : Server → Bool)
    (limit : Option Nat) (hw : Served path w) :
    ∃ w', Run w w' ∧ w'.server = workFor fuel goal limit w.server ∧ w'.puts = w.puts ∧
      w'.entered = w.entered := by
  induction fuel generalizing w with
  | zero => exact ⟨w, .refl, rfl, rfl, rfl⟩
  | succ fuel ih =>
    unfold workFor
    split
    · exact ⟨w, .refl, rfl, rfl, rfl⟩
    · split
      · rename_i s hmoved
        have hstep : Step w _ := .work s (stepFirst_lone hw.lone hmoved)
        obtain ⟨w', hrun, hserver, hkept⟩ := ih (hw.step hpub hstep)
        exact ⟨w', .head hstep hrun, hserver, hkept⟩
      · rename_i wake children _
        split
        · exact ⟨w, .refl, rfl, rfl, rfl⟩
        · split
          · exact ⟨w, .refl, rfl, rfl, rfl⟩
          · rename_i t _
            have hstep : Step w _ :=
              .aside _ (steady_host w.server (w.server.host.pass children t))
            obtain ⟨w', hrun, hserver, hkept⟩ := ih (hw.step hpub hstep)
            exact ⟨w', .head hstep hrun, hserver, hkept⟩

/-- Submitting a job is a schedule of the two moves of a submitter. -/
theorem submit_run (w : Watched) (id : String) (kind : JobKind) :
    ∃ w', Run w w' ∧ w'.server = w.server.submit id kind ∧
      w'.puts = w.puts ++ [some ⟨id, kind, w.server.nextToken⟩] := by
  have hentered := Relation.ReflTransGen.single (Step.enter ⟨id, kind, w.server.nextToken⟩ :
    Step w _)
  have hput := hentered.tail (.put ⟨id, kind, w.server.nextToken⟩ (List.mem_cons_self ..))
  have hnoted := hput.tail (.aside (w.server.submit id kind) ⟨rfl, rfl, rfl⟩)
  exact ⟨_, hnoted, rfl, rfl⟩

/-- Stopping is a schedule in which at most the request to stop is put in the queue. -/
theorem stop_run (hpub : Sink.Publishes path) (patience : Option Nat) (hw : Served path w) :
    ∃ w', Run w w' ∧ w'.server = w.server.stop patience ∧
      (w'.puts = w.puts ∨ w'.puts = w.puts ++ [none]) := by
  unfold stop
  split
  · exact ⟨w, .refl, rfl, .inl rfl⟩
  · have hput : Step w _ := .putStop
    unfold workUntil
    dsimp only
    obtain ⟨mid, hrun, hserver, hputs, -⟩ := workFor_run hpub _ _ _ (hw.step hpub hput)
    have hgone : Steady mid.server { mid.server with active := none } := ⟨rfl, rfl, rfl⟩
    refine ⟨_, .head hput (hrun.tail (.aside _ hgone)), ?_, .inr hputs⟩
    simp only [Watched.after, hserver]
    rfl

/-- The output file of a server refuses no record if the home directory can be named. -/
theorem publishes_outputFile {settings : Settings} (hhome : settings.home.hasNul = false) :
    Sink.Publishes (some settings.outputFile) := by
  have hparts : Path.ofString "last_output.json" = ⟨.here, ["last_output.json"]⟩ := by decide
  have hfile : settings.outputFile =
      ⟨settings.home.anchor, settings.home.parts ++ ["last_output.json"]⟩ := by
    rw [Settings.outputFile, Path.child, hparts]
    rfl
  have hname : settings.outputFile.name = "last_output.json" := by
    simp [hfile, Path.name]
  have hnul : settings.outputFile.hasNul = false := by
    have hlast : '\x00' ∉ "last_output.json".toList := by decide
    simpa [hfile, Path.hasNul, hlast] using hhome
  refine Sink.publishes_some hnul (if_neg ?_)
  simp [hname]

/-- A server that was made, and whose worker was started; the children that there were on the
machine had numbers that were given. -/
inductive Launched : Server → Prop
  | mk {settings : Settings} {catalog : Catalog} {delegate : Delegate} {h : Host}
      {made s : Server} : settings.home.hasNul = false → h.machine.Numbered →
    (create settings catalog delegate h).2 = .ok made → made.start = (s, .ok ()) → Launched s

theorem create_ok {settings : Settings} {catalog : Catalog} {delegate : Delegate} {h : Host}
    (hok : (create settings catalog delegate h).2 = .ok s) : Fresh s ∧ s.active = none ∧
      s.holder = none ∧ s.sink.path = some settings.outputFile ∧
      ∃ tree, s.host = h.withTree tree := by
  have hfiles := result_files (Workspace.ensure ⟨settings.workDir, h.cwd⟩) h
  unfold result at hfiles
  unfold create at hok
  dsimp only at hok
  rw [hfiles] at hok
  dsimp only at hok
  split at hok
  · cases hok
  · cases hok
    exact ⟨⟨rfl, rfl, rfl⟩, rfl, rfl, rfl, _, rfl⟩

theorem start_ok (hactive : s.active = none) (hstart : s.start = (s', .ok ())) :
    ∃ host, s' = { s with
      host := host
      active := some s.workers.length
      workers := s.workers ++ [.waiting] } := by
  cases hensured : (outcome s.workspace.ensure s.host.machine.tree).1 with
  | error failure =>
    unfold start at hstart
    rw [if_neg (by simp [hactive]), act_files, hensured] at hstart
    cases hstart
  | ok base =>
    obtain ⟨host, heq⟩ := start_eq hactive hensured
    rw [hstart] at heq
    exact ⟨host, congrArg Prod.fst heq⟩

/-- Nothing was served by a server that was just started, and no record will be refused. -/
theorem Launched.served (h : Launched s) :
    ∃ path, Sink.Publishes path ∧ Served path { server := s } := by
  obtain ⟨hhome, -, hmade, hstart⟩ := h
  obtain ⟨hfresh, hactive, -, hpath, -⟩ := create_ok hmade
  obtain ⟨host, rfl⟩ := start_ok hactive hstart
  refine ⟨_, publishes_outputFile hhome, ?_, hpath, ?_, ?_, ?_, ?_⟩
  · simp [Sink.Numbered, hfresh.records]
  · simp [hfresh.workers]
  · simp [hfresh.workers]
  · simp [hfresh.workers, reported]
  · simp [hfresh.workers, hfresh.queue, taken]

end SnippetRunner.Server
