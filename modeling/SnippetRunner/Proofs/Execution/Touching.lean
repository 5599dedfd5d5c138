import SnippetRunner.Delegate.Fallback
import SnippetRunner.Proofs.Workspace.Additions

/-!
What actions do to a host. Most of them only add to files and to the log; asking a service sends
a request. None of them starts a child: that is left to the chain that they plan, and the chain
is stopped by the token that they were given.
-/
namespace SnippetRunner

open Success

/-- Some requests were sent, no child was started, listed or let go, and no token cancelled. -/
structure Sends (requests : List HttpRequest) (h h' : Host) : Prop where
  children : h'.machine.children = h.machine.children
  nextId : h'.machine.nextId = h.machine.nextId
  cancelled : h'.cancelled = h.cancelled
  tracker : h'.tracker = h.tracker
  sent : h'.wire.sent = h.wire.sent ++ requests

/-- Besides, files were added or rewritten. -/
structure Touches (requests : List HttpRequest) (h h' : Host) : Prop
    extends Sends requests h h' where
  grown : FileTree.Grown h.machine.tree h'.machine.tree

section Relations

variable {requests requests' : List HttpRequest} {h mid h' : Host}

theorem Sends.refl (h : Host) : Sends [] h h :=
  ⟨rfl, rfl, rfl, rfl, (List.append_nil _).symm⟩

theorem Sends.trans (h₁ : Sends requests h mid) (h₂ : Sends requests' mid h') :
    Sends (requests ++ requests') h h' where
  children := h₂.children.trans h₁.children
  nextId := h₂.nextId.trans h₁.nextId
  cancelled := h₂.cancelled.trans h₁.cancelled
  tracker := h₂.tracker.trans h₁.tracker
  sent := by rw [h₂.sent, h₁.sent, List.append_assoc]

theorem Touches.refl (h : Host) : Touches [] h h := ⟨.refl h, .refl _⟩

theorem Touches.trans (h₁ : Touches requests h mid) (h₂ : Touches requests' mid h') :
    Touches (requests ++ requests') h h' :=
  ⟨h₁.toSends.trans h₂.toSends, h₁.grown.trans h₂.grown⟩

end Relations

/-- An entry is added to the log file, if that is there, or written to no file. -/
theorem appendEntry_cases (l : Log) (t : FileTree) (now : Moment) (e : LogEntry) :
    l.appendEntry t now e = t ∨
      ∃ loc octets executable more, l.file = some loc ∧ loc ≠ [] ∧
        t.find? loc = some (.file octets executable) ∧
        l.appendEntry t now e = t.insert loc (.file (octets ++ more) executable) := by
  unfold Log.appendEntry
  split
  · exact Or.inl rfl
  · next loc hfile =>
    split
    · next octets executable hold =>
      have hroot : loc ≠ [] := by
        rintro rfl
        cases hold
      exact Or.inr ⟨loc, octets, executable, _, hfile, hroot, hold, rfl⟩
    · exact Or.inl rfl

/-- Writing an entry adds to the log file. -/
theorem appendEntry_grown (l : Log) (t : FileTree) (now : Moment) (e : LogEntry) :
    FileTree.Grown t (l.appendEntry t now e) := by
  rcases appendEntry_cases l t now e with heq | ⟨loc, octets, mode, more, -, hroot, hold, heq⟩
  · rw [heq]
    exact .refl t
  · rw [heq]
    refine FileTree.grown_insert hroot trivial fun old hfound => ?_
    rw [hold] at hfound
    cases hfound
    exact .rewritten

theorem note_touches (h : Host) (source : String) (level : LogLevel) (text : String) :
    Touches [] h (h.note source level text) := by
  refine ⟨⟨rfl, rfl, rfl, rfl, (List.append_nil _).symm⟩, ?_⟩
  show FileTree.Grown _ (h.log.write h.machine.tree h.now _).2
  unfold Log.write
  split
  · exact appendEntry_grown ..
  · exact .refl _

namespace Act

structure Gentle {α : Type} (x : Act α) : Prop where
  touches : ∀ h, Touches [] h (result x h).2

section Composed

variable {α β : Type}

theorem Gentle.bind {x : Act α} {f : α → Act β} (hx : Gentle x) (hf : ∀ a, Gentle (f a)) :
    Gentle (x >>= f) := by
  refine ⟨fun h => ?_⟩
  have htouches := hx.touches h
  rw [result_bind]
  split
  · next a mid hmid =>
    rw [hmid] at htouches
    exact htouches.trans ((hf a).touches mid)
  · next hmid =>
    rw [hmid] at htouches
    exact htouches

theorem gentle_pure (a : α) : Gentle (pure a : Act α) := ⟨fun h => .refl h⟩

theorem gentle_get : Gentle (get : Act Host) := ⟨fun h => .refl h⟩

theorem gentle_throw (f : Failure) : Gentle (throw f : Act α) := ⟨fun h => .refl h⟩

theorem gentle_lift (r : Except Failure α) : Gentle (liftM r : Act α) := by
  refine ⟨fun h => ?_⟩
  rw [result_lift]
  exact .refl h

theorem gentle_note (source : String) (level : LogLevel) (text : String) :
    Gentle (Act.note source level text) :=
  ⟨fun h => note_touches h source level text⟩

theorem gentle_noteAll (entries : List LogEntry) : Gentle (Act.noteAll entries) := by
  refine ⟨fun h => ?_⟩
  show Touches [] h (entries.foldl (fun h e => h.note e.source e.level e.text) h)
  induction entries generalizing h with
  | nil => exact .refl h
  | cons e rest ih => exact (note_touches ..).trans (ih _)

theorem gentle_files {f : Files α} (hf : Workspace.Grows f) : Gentle (Act.files f) := by
  refine ⟨fun h => ?_⟩
  rw [result_files]
  exact ⟨⟨rfl, rfl, rfl, rfl, (List.append_nil _).symm⟩, hf.grown _⟩

end Composed

structure Gives {α : Type} (P : α → Prop) (x : Act α) : Prop where
  gives : ∀ h a mid, result x h = (.ok a, mid) → P a

section Given

variable {α β : Type} {P : α → Prop} {Q : β → Prop}

theorem Gives.bind {x : Act α} {f : α → Act β} (hx : Gives P x) (hf : ∀ a, P a → Gives Q (f a)) :
    Gives Q (x >>= f) := by
  refine ⟨fun h b last hresult => ?_⟩
  rw [result_bind] at hresult
  split at hresult
  · next a mid hmid => exact (hf a (hx.gives h a mid hmid)).gives mid b last hresult
  · cases hresult

theorem gives_any (x : Act α) : Gives (fun _ => True) x := ⟨fun _ _ _ _ => trivial⟩

theorem gives_pure {a : α} (ha : P a) : Gives P (pure a) := by
  refine ⟨fun h b mid hresult => ?_⟩
  cases hresult
  exact ha

theorem gives_lift {r : Except Failure α} (hr : ∀ a, r = .ok a → P a) :
    Gives P (liftM r : Act α) := by
  refine ⟨fun h a mid hresult => hr a ?_⟩
  rw [result_lift] at hresult
  exact congrArg Prod.fst hresult

theorem gives_files {f : Files α} (hf : ∀ t a t', outcome f t = (.ok a, t') → P a) :
    Gives P (Act.files f) := by
  refine ⟨fun h a mid hresult => hf h.machine.tree a (outcome f h.machine.tree).2 ?_⟩
  rw [result_files] at hresult
  have hfirst : (outcome f h.machine.tree).1 = .ok a := congrArg Prod.fst hresult
  rw [← hfirst]

end Given

end Act

/-- The steps of a plan are those of a job, and a certain token stops them. -/
structure ChainPlan.For (job : String) (token : Nat) (p : ChainPlan) : Prop where
  job : p.job = job
  token : p.token = token

theorem Engine.plan_for {e : Engine} {d : Descriptor} {m : Materials} {env : Environment}
    {job : String} {token : Nat} {plan : ChainPlan} (h : e.plan d m env job token = .ok plan) :
    plan.For job token := by
  obtain ⟨steps, -, hplan⟩ := bind_eq_ok.mp h
  cases hplan
  exact ⟨rfl, rfl⟩

theorem Interpreters.prepare_for {i : Interpreters} {engine : Engine} {cwd : Location}
    {language code job : String} {workdir : Path} {token : Nat} {t t' : FileTree}
    {plan : ChainPlan}
    (h : outcome (i.prepare engine cwd language code workdir job token) t = (.ok plan, t')) :
    plan.For job token := by
  unfold prepare at h
  split at h
  · cases h
  · obtain ⟨_, _, -, h⟩ := outcome_bind_eq_ok.mp h
    obtain ⟨_, _, -, h⟩ := outcome_bind_eq_ok.mp h
    cases h
    exact ⟨rfl, rfl⟩

/-- The steps that are still to be made are those of a job. -/
def Started.For (job : String) (token : Nat) (s : Started) : Prop :=
  ∀ plan, s = .chain plan → plan.For job token

def Remote.sent (r : Remote) (language code : String) (w : Wire) : List HttpRequest :=
  match w.addressFault r.url with
  | some _ => []
  | none => [r.request language code]

namespace Fallback

open Act

variable (f : Fallback)

theorem resolve_gentle (request : RunRequest) (filetype : String) :
    Gentle (f.resolve request filetype) := by
  unfold resolve
  split
  · exact gentle_throw _
  · exact gentle_get.bind fun _ => (gentle_lift _).bind fun _ => (gentle_lift _).bind fun _ =>
      (gentle_noteAll _).bind fun _ => gentle_pure _

theorem begin_gentle {table : Interpreters} (hlocal : f.delegate = .interpreters table)
    (name code job : String) (token : Nat) : Gentle (f.begin_ name code job token) := by
  unfold begin_ execute
  simp only [hlocal]
  exact (gentle_files (Workspace.ensure_grows _)).bind fun _ => gentle_get.bind fun _ =>
    (gentle_files (Interpreters.prepare_grows ..)).bind fun _ => gentle_pure _

/-- Asking a service sends one request, whatever comes back, if its address can be read. -/
theorem execute_touches (service : Remote) (language code job : String) (h : Host) :
    Touches (service.sent language code h.wire) h
      (result (service.execute language code job) h).2 := by
  have hsend (h : Host) (request : HttpRequest) :
      result (Act.send request) h = (.ok (h.send request).2, (h.send request).1) := rfl
  have hwire (source : String) (level : LogLevel) (text : String) :
      (h.note source level text).wire = h.wire := rfl
  have hnoted := note_touches h Remote.logName .info
    s!"[{job}] forwarding {language} block to {service.url}"
  unfold Remote.execute Remote.sent
  rw [result_bind]
  show Touches _ _ (result _ (h.note ..)).2
  rw [result_bind]
  show Touches _ _ (result _ (h.note ..)).2
  rw [hwire]
  cases h.wire.addressFault service.url with
  | some reason => exact hnoted
  | none =>
    rw [result_bind, hsend]
    dsimp only
    rw [result_lift]
    exact hnoted.trans ⟨⟨rfl, rfl, rfl, rfl, rfl⟩, .refl _⟩

/-- A delegate on the network is asked if the work directory could be made. -/
theorem begin_remote {service : Remote} (hremote : f.delegate = .remote service)
    (name code job : String) (token : Nat) (h : Host) :
    Touches
      (match (outcome f.workspace.ensure h.machine.tree).1 with
        | .ok _ => service.sent name code h.wire
        | .error _ => [])
      h (result (f.begin_ name code job token) h).2 := by
  unfold begin_ execute
  have hensured := (gentle_files (Workspace.ensure_grows f.workspace)).touches h
  rw [result_bind]
  rw [result_files] at hensured ⊢
  cases (outcome f.workspace.ensure h.machine.tree).1 with
  | error e => exact hensured
  | ok base =>
    simp only [hremote]
    refine hensured.trans ?_
    have hasked := execute_touches service name code job
      (h.withTree (outcome f.workspace.ensure h.machine.tree).2)
    rw [result_bind]
    cases hresult : result (service.execute name code job)
        (h.withTree (outcome f.workspace.ensure h.machine.tree).2) with
    | mk answered last =>
      rw [hresult] at hasked
      cases answered <;> exact hasked

theorem begin_for (name code job : String) (token : Nat) :
    Gives (Started.For job token) (f.begin_ name code job token) := by
  unfold begin_ execute
  refine (gives_any _).bind fun base _ => ?_
  split
  · refine (gives_any _).bind fun h _ =>
      (gives_files fun _ _ _ => Interpreters.prepare_for).bind fun plan hplan => gives_pure ?_
    intro other hsame
    cases hsame
    exact hplan
  · exact (gives_any _).bind fun o _ => gives_pure fun _ h => by cases h

end Fallback

end SnippetRunner
