import SnippetRunner.Network.Script
import SnippetRunner.Proofs.Execution.Admission
import SnippetRunner.Proofs.Server.Effects
import SnippetRunner.Server.Time

/-!
Requests that are turned away. What turns a request away is found out before anything is done
for it, and nothing that is done later fails in such a way, so that a request that is turned
away has left no trace but an entry of the log.
-/
namespace SnippetRunner.Server

open Success

/-- Once a request is resolved, nothing that is done for it turns it away. -/
theorem startResolved_admitting (s : Server) (r : Resolved) (job : String) (token : Nat) :
    Act.Admitting (s.startResolved r job token) := by
  cases r with
  | delegated name code => exact s.fallback.begin_admitting name code job token
  | described d level snippet =>
    exact (Act.admitting_files (Workspace.materialize_admitting ..)).bind fun _ =>
      (Act.admitting_note ..).bind fun _ => Act.admitting_get.bind fun _ =>
        (Act.admitting_lift (s.engine.plan_admits _ _ _ _ _)).bind fun _ => Act.admitting_pure _

/-- What is left of a request that is turned away: the log tells of a fallback that was tried,
and nothing else differs. -/
structure Untouched (s s' : Server) : Prop where
  rest : s' = { s with host := { s.host with
    machine := { s.host.machine with tree := s'.host.machine.tree }
    log := s'.host.log } }
  /-- No file differs but the log file, wherever that is. -/
  files : ∀ loc, s.host.log.file ≠ some loc →
    s'.host.machine.tree.find? loc = s.host.machine.tree.find? loc
  without_log_file : s.host.log.file = none → s'.host.machine.tree = s.host.machine.tree
  /-- The log file keeps what it holds. -/
  log_file : ∀ loc octets executable,
    s.host.machine.tree.find? loc = some (.file octets executable) →
    ∃ more, s'.host.machine.tree.find? loc = some (.file (octets ++ more) executable)
  children : s'.host.machine.children = s.host.machine.children
  /-- Each child that is started takes the next number. -/
  none_started : s'.host.machine.nextId = s.host.machine.nextId
  tracker : s'.host.tracker = s.host.tracker
  sent : s'.host.wire.sent = s.host.wire.sent

/-- A location at or below the place where the path of the work directory leads. -/
def InWork (s : Server) (loc : Location) : Prop :=
  ∃ base e, s.host.machine.tree.stat s.workspace.cwd s.workspace.base = .ok (base, e) ∧
    base <+: loc

/-- The log is written to no file of the work directory. -/
def LogApart (s : Server) : Prop :=
  ∀ file, s.host.log.file = some file → ¬ s.InWork file

/-- The work directory holds what it held before, each entry at its place. -/
structure WorkKept (s s' : Server) : Prop where
  place : ∀ loc, s'.InWork loc ↔ s.InWork loc
  entries : ∀ loc, s.InWork loc →
    s'.host.machine.tree.find? loc = s.host.machine.tree.find? loc

section TurnedAway

variable {s s' : Server} {request : RunRequest} {job : String} {token : Nat} {f : Failure}

theorem untouched_refl (s : Server) : Untouched s s :=
  ⟨rfl, fun _ _ => rfl, fun _ => rfl, fun _ octets _ h => ⟨[], by simpa using h⟩, rfl, rfl, rfl,
    rfl⟩

/-- An entry of the log is added to the log file or written to no file. -/
theorem note_tree (h : Host) (source : String) (level : LogLevel) (text : String) :
    (h.note source level text).machine.tree = h.machine.tree ∨
      ∃ loc octets executable more, h.log.file = some loc ∧ loc ≠ [] ∧
        h.machine.tree.find? loc = some (.file octets executable) ∧
        (h.note source level text).machine.tree =
          h.machine.tree.insert loc (.file (octets ++ more) executable) := by
  show (h.log.write _ _ _).2 = _ ∨ ∃ loc octets executable more, _ ∧ _ ∧ _ ∧
    (h.log.write _ _ _).2 = _
  unfold Log.write
  split
  · exact appendEntry_cases ..
  · exact Or.inl rfl

theorem untouched_noted (s : Server) (source : String) (level : LogLevel) (text : String) :
    Untouched s { s with host := s.host.note source level text } := by
  rcases note_tree s.host source level text with
    htree | ⟨file, old, mode, more, hfile, hroot, hold, htree⟩
  · exact ⟨rfl, fun _ _ => by rw [htree], fun _ => htree,
      fun _ octets _ h => ⟨[], by simpa [htree] using h⟩, rfl, rfl, rfl, rfl⟩
  · refine ⟨rfl, ?_, ?_, ?_, rfl, rfl, rfl, rfl⟩
    · intro loc hloc
      rw [htree, FileTree.find?_insert _ hroot, if_neg]
      rintro rfl
      exact hloc hfile
    · intro hnone
      cases hnone.symm.trans hfile
    · intro loc octets executable h
      rw [htree, FileTree.find?_insert _ hroot]
      by_cases hloc : loc = file
      · subst hloc
        cases hold.symm.trans h
        exact ⟨more, if_pos rfl⟩
      · exact ⟨[], by simpa [hloc] using h⟩

theorem untouched_note (s : Server) (level : LogLevel) (text : String) :
    Untouched s (s.note level text) := untouched_noted s logName level text

/-- The paths that led somewhere before an entry of the log was added lead there still, and
none besides. -/
theorem stat_noted (h : Host) (source : String) (level : LogLevel) (text : String)
    (cwd : Location) (p : Path) (loc : Location) :
    (∃ e, (h.note source level text).machine.tree.stat cwd p = .ok (loc, e)) ↔
      ∃ e, h.machine.tree.stat cwd p = .ok (loc, e) := by
  have hforth := (note_touches h source level text).grown
  have hback : FileTree.Grown (h.note source level text).machine.tree h.machine.tree := by
    rcases note_tree h source level text with htree | ⟨file, _, _, _, -, hroot, hold, htree⟩
    · exact htree ▸ .refl _
    · exact htree ▸ FileTree.grown_of_rewritten hroot hold
  constructor
  · rintro ⟨e, he⟩
    obtain ⟨e', he', -⟩ := hback.kept loc e (FileTree.find?_of_stat he)
    exact ⟨e', FileTree.stat_grown hback he he'⟩
  · rintro ⟨e, he⟩
    obtain ⟨e', he', -⟩ := hforth.kept loc e (FileTree.find?_of_stat he)
    exact ⟨e', FileTree.stat_grown hforth he he'⟩

/-- If the log is written elsewhere, an entry of it leaves the work directory as it was. -/
theorem workKept_noted (hapart : s.LogApart) (source : String) (level : LogLevel)
    (text : String) : WorkKept s { s with host := s.host.note source level text } := by
  constructor
  · intro loc
    have hstat := stat_noted s.host source level text s.workspace.cwd s.workspace.base
    constructor
    · rintro ⟨base, e, he, hloc⟩
      obtain ⟨e', he'⟩ := (hstat base).mp ⟨e, he⟩
      exact ⟨base, e', he', hloc⟩
    · rintro ⟨base, e, he, hloc⟩
      obtain ⟨e', he'⟩ := (hstat base).mpr ⟨e, he⟩
      exact ⟨base, e', he', hloc⟩
  · intro loc hloc
    exact (untouched_noted s source level text).files loc fun hfile => hapart loc hfile hloc

/-- A request that is not resolved leaves at most an entry of the log, which says by which name
a fallback was to run it. -/
theorem resolveRequest_failed {h' : Host}
    (hresult : result (s.resolveRequest request job) s.host = (.error f, h')) :
    h' = s.host ∨ ∃ text, h' = (s.note .info text).host := by
  unfold resolveRequest at hresult
  rw [result_bind, result_lift] at hresult
  cases hfiletype : s.filetypeOf request with
  | error e =>
    rw [hfiletype] at hresult
    cases hresult
    exact Or.inl rfl
  | ok filetype =>
    rw [hfiletype] at hresult
    dsimp only at hresult
    split at hresult
    · split at hresult
      · cases hresult
        exact Or.inl rfl
      · right
        rw [result_bind] at hresult
        change result (_ >>= _) (s.note .info _).host = _ at hresult
        rw [result_bind] at hresult
        split at hresult
        · cases hresult
        · next hfallback =>
          cases hresult
          exact ⟨_, Fallback.resolve_failed _ hfallback⟩
    · rw [result_bind] at hresult
      change result (_ >>= _) s.host = _ at hresult
      rw [result_bind, result_lift] at hresult
      generalize Selection.resolve _ _ _ _ _ = resolved at hresult
      cases resolved with
      | error e =>
        cases hresult
        exact Or.inl rfl
      | ok resolution => cases hresult

/-- A request that is turned away touches nothing: whether it has a language of its own or is
one for a fallback, what turns it away comes before all that is done for it. The work directory
is what it was, unless it is there that the log is kept, to which such a request may add. -/
theorem execute_rejected_untouched (h : s.execute request job token = (s', .error f))
    (hf : f.isRejection = true) : Untouched s s' ∧ (s.LogApart → WorkKept s s') := by
  unfold execute at h
  rw [act_result] at h
  cases hresolved : result (s.resolveRequest request job) s.host with
  | mk resolved host =>
    rw [hresolved] at h
    cases resolved with
    | error e =>
      cases h
      rcases resolveRequest_failed hresolved with hhost | ⟨text, hhost⟩
      · subst hhost
        exact ⟨untouched_refl s, fun _ => ⟨fun _ => .rfl, fun _ _ => rfl⟩⟩
      · subst hhost
        exact ⟨untouched_note s .info text, fun hapart => workKept_noted hapart logName .info text⟩
    | ok r =>
      exfalso
      dsimp only at h
      generalize workUntil _ _ _ = ready at h
      rw [act_result] at h
      have hadmits := (startResolved_admitting ready r job token).admits ready.host
      cases hstarted : (result (ready.startResolved r job token) ready.host).1 with
      | error e =>
        rw [hstarted] at h hadmits
        cases h
        exact absurd hf (by simp [hadmits f rfl])
      | ok started =>
        rw [hstarted] at h
        dsimp only at h
        have hrun := started.run_admits (result (ready.startResolved r job token) ready.host).2
        have hfailed : (started.run (result (ready.startResolved r job token) ready.host).2).2 =
            .error f := map_eq_error.mp (congrArg Prod.snd h)
        exact absurd hf (by simp [hrun f hfailed])

end TurnedAway

section Backwards

/-- A server with a log file beside its work directory and a service for what it does not know. -/
private def forwarding : Server where
  settings := { home := ⟨.root, []⟩, workDir := ⟨.root, ["work"]⟩ }
  catalog := ⟨[], [], [("perl", "perl")]⟩
  delegate := .remote ⟨"http://localhost", none⟩
  workspace := ⟨⟨.root, ["work"]⟩, []⟩
  engine := {}
  limits := {}
  host := {
    machine := .start ⟨[(["work"], .directory), (["log"], .file [] false),
      (["work", "main.pl"], .file [] false)]⟩
    cwd := []
    env := []
    wire := .down
    log := { installed := true, file := some ["log"], threshold := some 20 } }
  sink := { path := none, history := 2 }

private theorem stat_work : forwarding.host.machine.tree.stat [] ⟨.root, ["work"]⟩ =
    .ok (["work"], .directory) := by cbv

private theorem inWork_forwarding (loc : Location) :
    forwarding.InWork loc ↔ ["work"] <+: loc := by
  constructor
  · rintro ⟨base, e, hstat, hloc⟩
    cases stat_work.symm.trans hstat
    exact hloc
  · exact fun hloc => ⟨["work"], .directory, stat_work, hloc⟩

private def backwards : RunRequest where
  file := ⟨.root, ["work", "main.pl"]⟩
  first := 2
  last := 1
  scriptDir := ⟨.root, []⟩
  filetype := some "perl"

/-- Of a range that is none the service never hears. -/
theorem execute_rejected_untouched_badRange :
    ∃ s', forwarding.execute backwards "adhoc" 1 =
        (s', .error (.invalidRequest (.badRange 2 1))) ∧
      Failure.isRejection (.invalidRequest (.badRange 2 1)) = true ∧
      Untouched forwarding s' ∧ forwarding.LogApart ∧ forwarding.InWork ["work", "main.pl"] ∧
      WorkKept forwarding s' := by
  have hfailed : (forwarding.execute backwards "adhoc" 1).2 =
      .error (.invalidRequest (.badRange 2 1)) := rfl
  have hrejected : forwarding.execute backwards "adhoc" 1 =
      ((forwarding.execute backwards "adhoc" 1).1,
        .error (.invalidRequest (.badRange 2 1))) := Prod.ext rfl hfailed
  have hapart : forwarding.LogApart := by
    intro file hfile
    cases hfile
    rw [inWork_forwarding]
    decide
  have hinside : forwarding.InWork ["work", "main.pl"] :=
    (inWork_forwarding _).mpr (by decide)
  obtain ⟨huntouched, hkept⟩ := execute_rejected_untouched hrejected rfl
  exact ⟨_, hrejected, rfl, huntouched, hapart, hinside, hkept hapart⟩

end Backwards

end SnippetRunner.Server
