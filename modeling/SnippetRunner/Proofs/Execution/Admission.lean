import SnippetRunner.Delegate.Fallback
import SnippetRunner.Proofs.Success

/-!
Failures that turn a request away: its language is not known, its range is none, or its file
cannot be read. Writing the files of a run, starting its children, waiting for them and asking a
service may all fail, but never in one of these ways.
-/
namespace SnippetRunner

open Success

def Failure.isRejection : Failure → Bool
  | .unsupportedLanguage _ => true
  | .invalidRequest _ => true
  | .sourceUnavailable _ => true
  | _ => false

def Admits {α : Type} (r : Except Failure α) : Prop :=
  ∀ f, r = .error f → f.isRejection = false

section Plain

variable {α β ε : Type}

theorem admits_ok (a : α) : Admits (.ok a) := fun _ h => nomatch h

theorem admits_error {f : Failure} (hf : f.isRejection = false) :
    Admits (.error f : Except Failure α) := by
  intro g h
  cases h
  exact hf

theorem Admits.bind {x : Except Failure α} {f : α → Except Failure β} (hx : Admits x)
    (hf : ∀ a, Admits (f a)) : Admits (x >>= f) := by
  intro e h
  rcases bind_eq_error.mp h with h | ⟨a, -, h⟩
  · exact hx e h
  · exact hf a e h

theorem Admits.map {x : Except Failure α} (hx : Admits x) (f : α → β) : Admits (x.map f) :=
  fun e h => hx e (map_eq_error.mp h)

/-- A failure of another kind, told as one that turns nothing away. -/
theorem admits_mapError {x : Except ε α} {kind : ε → Failure}
    (hkind : ∀ e, (kind e).isRejection = false) : Admits (x.mapError kind) := by
  intro f h
  cases x with
  | ok a => cases h
  | error e =>
    cases h
    exact hkind e

theorem admits_mapM {l : List α} {f : α → Except Failure β} (hf : ∀ a, Admits (f a)) :
    Admits (l.mapM f) := by
  intro e h
  obtain ⟨a, -, ha⟩ := mapM_error h
  exact hf a e ha

end Plain

theorem Site.resolve_admits (s : Site) (p : Path) : Admits (s.resolve p) :=
  admits_mapError fun e => by cases e <;> rfl

theorem Snippet.searchPaths_admits (s : Snippet) (site : Site) : Admits (s.searchPaths site) :=
  (admits_mapM site.resolve_admits).bind fun _ => admits_ok _

namespace Workspace

structure Admitting {α : Type} (f : Files α) : Prop where
  admits : ∀ t, Admits (outcome f t).1

section Composed

variable {α β : Type}

theorem Admitting.bind {x : Files α} {f : α → Files β} (hx : Admitting x)
    (hf : ∀ a, Admitting (f a)) : Admitting (x >>= f) := by
  refine ⟨fun t => ?_⟩
  have hadmits := hx.admits t
  rw [outcome_bind]
  split
  · next a mid _ => exact (hf a).admits mid
  · next hmid =>
    rw [hmid] at hadmits
    exact admits_error (hadmits _ rfl)

theorem admitting_pure (a : α) : Admitting (pure a : Files α) := ⟨fun _ => admits_ok a⟩

theorem admitting_get : Admitting (get : Files FileTree) := ⟨fun t => admits_ok t⟩

theorem admitting_set (t : FileTree) : Admitting (set t : Files PUnit) :=
  ⟨fun _ => admits_ok PUnit.unit⟩

theorem admitting_lift {r : Except Failure α} (hr : Admits r) : Admitting (liftM r : Files α) := by
  refine ⟨fun t => ?_⟩
  rw [outcome_lift]
  exact hr

theorem admitting_throw {f : Failure} (hf : f.isRejection = false) :
    Admitting (throw f : Files α) :=
  ⟨fun _ => admits_error hf⟩

end Composed

variable (w : Workspace) (p : Path)

theorem failureOf_admits (kind : FileFault → WorkspaceFault) (fault : FileFault) :
    (failureOf kind fault).isRejection = false := by
  unfold failureOf
  split <;> rfl

theorem makeDirectory_admitting (kind : FileFault → WorkspaceFault) :
    Admitting (w.makeDirectory p kind) := by
  refine admitting_get.bind fun t => (admitting_set _).bind fun _ => ?_
  split
  · exact admitting_pure _
  · exact admitting_throw (failureOf_admits ..)

theorem ensure_admitting : Admitting w.ensure :=
  (makeDirectory_admitting ..).bind fun _ => admitting_pure _

theorem writeFile_admitting (content : String) : Admitting (w.writeFile p content) := by
  refine (makeDirectory_admitting ..).bind fun _ => admitting_get.bind fun t => ?_
  split
  · exact admitting_set _
  · exact admitting_throw (failureOf_admits ..)

theorem save_admitting (language content : String) : Admitting (w.save language p content) :=
  (ensure_admitting w).bind fun _ => (writeFile_admitting ..).bind fun _ => admitting_pure _

theorem saveMirrored_admitting (language : String) (fragments : List Fragment) :
    Admitting (w.saveMirrored language fragments) := by
  induction fragments with
  | nil => exact admitting_pure _
  | cons f rest ih =>
    unfold saveMirrored
    split
    · exact ih
    · exact (save_admitting ..).bind fun _ => ih.bind fun _ => admitting_pure _

/-- Only what cannot be rendered or written keeps the files of a snippet from being written. -/
theorem materialize_admitting (s : Snippet) : Admitting (w.materialize s) :=
  (admitting_lift (admits_mapError fun _ => rfl)).bind fun _ => (save_admitting ..).bind fun _ =>
    (saveMirrored_admitting ..).bind fun _ => admitting_get.bind fun _ =>
      (admitting_lift (s.searchPaths_admits _)).bind fun _ => admitting_pure _

end Workspace

theorem Interpreters.prepare_admitting (i : Interpreters) (engine : Engine) (cwd : Location)
    (language code : String) (workdir : Path) (job : String) (token : Nat) :
    Workspace.Admitting (i.prepare engine cwd language code workdir job token) := by
  unfold prepare
  split
  · exact Workspace.admitting_throw rfl
  · exact (Workspace.makeDirectory_admitting ..).bind fun _ =>
      (Workspace.writeFile_admitting ..).bind fun _ => Workspace.admitting_pure _

section Running

theorem Materials.binary_admits (m : Materials) : Admits m.binary := by
  unfold binary
  split
  · exact admits_ok _
  · exact admits_error rfl

theorem Engine.expand_admits (e : Engine) (template : List String) (m : Materials) :
    Admits (e.expand template m) := by
  refine m.binary_admits.bind fun binary => (admits_mapM fun token => ?_).bind fun _ => admits_ok _
  unfold expandToken
  split
  · exact admits_ok _
  · exact (admits_mapError fun _ => rfl).map _

theorem Engine.plan_admits (e : Engine) (d : Descriptor) (m : Materials) (env : Environment)
    (job : String) (token : Nat) : Admits (e.plan d m env job token) :=
  (admits_mapM fun template => e.expand_admits template m).bind fun _ => admits_ok _

theorem SpawnPlan.failure_admits (p : SpawnPlan) (e : FileError) (path : String) :
    (p.failure e path).isRejection = false := by
  unfold failure
  split <;> rfl

theorem SpawnPlan.startDirectory_admits (p : SpawnPlan) (h : Host) :
    Admits (p.startDirectory h) := by
  unfold startDirectory
  split
  · exact admits_ok _
  · exact admits_error (p.failure_admits ..)
  · exact admits_error (p.failure_admits ..)

/-- A child that cannot be started turns nothing away. -/
theorem SpawnPlan.start_admits (p : SpawnPlan) (h : Host) : Admits (p.start h) := by
  unfold start
  by_cases hempty : p.argv.isEmpty = true
  · rw [if_pos hempty]
    exact admits_error (f := .emptyCommand) rfl
  rw [if_neg hempty]
  by_cases hnul : p.hasNul = true
  · rw [if_pos hnul]
    exact admits_error (f := .file (.at_ .nullByte "")) rfl
  rw [if_neg hnul]
  exact (p.startDirectory_admits h).bind fun cwd =>
    (admits_mapError fun e => p.failure_admits e _).bind fun _ => admits_ok _

namespace Chain

theorem step_failed {c : Chain} {h h' : Host} {f : Failure} (hstep : c.step h = .failed h' f) :
    f.isRejection = false := by
  unfold step at hstep
  split at hstep
  · split at hstep
    · unfold endStep at hstep
      dsimp only at hstep
      split at hstep <;> cases hstep
    · split at hstep
      · cases hstep
      · unfold poll at hstep
        dsimp only at hstep
        split at hstep
        · cases hstep
        · split at hstep
          · cases hstep
          · split at hstep <;> cases hstep
  · split at hstep
    · cases hstep
    · split at hstep
      · cases hstep
      · unfold beginStep at hstep
        dsimp only at hstep
        split at hstep
        · next hstart =>
          cases hstep
          exact SpawnPlan.start_admits _ _ _ hstart
        · cases hstep

/-- However long a chain is moved, it turns nothing away. -/
theorem runFor_admits (fuel : Nat) (c : Chain) (h : Host) (timers : Timers) :
    Admits (runFor fuel c h timers).2 := by
  induction fuel generalizing c h timers with
  | zero => exact admits_ok _
  | succ fuel ih =>
    unfold runFor
    dsimp only
    split
    · exact admits_ok _
    · next hstep => exact admits_error (step_failed hstep)
    · exact ih _ _ _
    · exact ih _ _ _

end Chain

theorem Started.run_admits (s : Started) (h : Host) : Admits (s.run h).2 := by
  cases s with
  | finished outcome => exact admits_ok _
  | chain plan => exact Chain.runFor_admits _ _ _ _

end Running

section Asking

theorem Remote.outcomeOf_admits (url : String) (answer : Json) :
    Admits (outcomeOf url answer) := by
  have hnumber : ∀ e, (numberFailure url e).isRejection = false := fun e => by cases e <;> rfl
  unfold outcomeOf
  split
  · exact (admits_mapError hnumber).bind fun _ => (admits_mapError hnumber).bind fun _ =>
      admits_ok _
  · exact admits_error (f := .spawnFailed ..) rfl

/-- Whatever a service answers, it turns nothing away. -/
theorem Remote.interpret_admits (depth : Nat) (url : String) (answer : HttpResult) :
    Admits (interpret depth url answer) := by
  have hbody : ∀ e, (bodyFailure url e).isRejection = false := by
    intro e
    unfold bodyFailure
    split <;> rfl
  exact (admits_mapError fun _ => rfl).bind fun _ => (admits_mapError hbody).bind fun _ =>
    outcomeOf_admits url _

end Asking

namespace Act

structure Admitting {α : Type} (x : Act α) : Prop where
  admits : ∀ h, Admits (result x h).1

section Composed

variable {α β : Type}

theorem Admitting.bind {x : Act α} {f : α → Act β} (hx : Admitting x)
    (hf : ∀ a, Admitting (f a)) : Admitting (x >>= f) := by
  refine ⟨fun h => ?_⟩
  have hadmits := hx.admits h
  rw [result_bind]
  split
  · next a mid _ => exact (hf a).admits mid
  · next hmid =>
    rw [hmid] at hadmits
    exact admits_error (hadmits _ rfl)

theorem admitting_pure (a : α) : Admitting (pure a : Act α) := ⟨fun _ => admits_ok a⟩

theorem admitting_get : Admitting (get : Act Host) := ⟨fun h => admits_ok h⟩

theorem admitting_note (source : String) (level : LogLevel) (text : String) :
    Admitting (Act.note source level text) :=
  ⟨fun _ => admits_ok PUnit.unit⟩

theorem admitting_send (request : HttpRequest) : Admitting (Act.send request) :=
  ⟨fun h => admits_ok (h.send request).2⟩

theorem admitting_lift {r : Except Failure α} (hr : Admits r) : Admitting (liftM r : Act α) := by
  refine ⟨fun h => ?_⟩
  rw [result_lift]
  exact hr

theorem admitting_files {f : Files α} (hf : Workspace.Admitting f) : Admitting (Act.files f) := by
  refine ⟨fun h => ?_⟩
  rw [result_files]
  exact hf.admits _

end Composed

end Act

namespace Fallback

variable (f : Fallback)

theorem begin_admitting (name code job : String) (token : Nat) :
    Act.Admitting (f.begin_ name code job token) := by
  refine (Act.admitting_files (Workspace.ensure_admitting _)).bind fun base => ?_
  unfold execute
  split
  · exact Act.admitting_get.bind fun _ =>
      (Act.admitting_files (Interpreters.prepare_admitting ..)).bind fun _ => Act.admitting_pure _
  · have hasked (service : Remote) : Act.Admitting (service.execute name code job) := by
      refine (Act.admitting_note ..).bind fun _ => Act.admitting_get.bind fun h => ?_
      split
      · exact ⟨fun _ => admits_error (f := .address ..) rfl⟩
      · exact (Act.admitting_send _).bind fun _ =>
          Act.admitting_lift (Remote.interpret_admits _ _ _)
    exact (hasked _).bind fun _ => Act.admitting_pure _

/-- A block that is not resolved leaves the host as it was. -/
theorem resolve_failed {request : RunRequest} {filetype : String} {h h' : Host} {e : Failure}
    (hresult : result (f.resolve request filetype) h = (.error e, h')) : h' = h := by
  unfold resolve at hresult
  split at hresult
  · cases hresult
    rfl
  · rw [result_bind] at hresult
    change result (_ >>= _) h = _ at hresult
    rw [result_bind, result_lift] at hresult
    generalize request.sourcePath _ = sourcePath at hresult
    cases sourcePath with
    | error e =>
      cases hresult
      rfl
    | ok path =>
      dsimp only at hresult
      rw [result_bind, result_lift] at hresult
      generalize Selection.resolve _ _ _ _ _ = resolved at hresult
      cases resolved with
      | error e =>
        cases hresult
        rfl
      | ok resolution => cases hresult

end Fallback

end SnippetRunner
