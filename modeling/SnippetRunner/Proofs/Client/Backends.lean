import Mathlib.Data.List.TakeWhile
import Mathlib.Logic.Relation
import SnippetRunner.Network.Script
import SnippetRunner.Proofs.Client.Apart

/-!
The backends of a client. A process that is alive is the one of the session of its handle, so
that there is at most one for a handle; what is not wanted any more has ended. This holds
between any calls, whatever processes and the network do, as long as the library opens a session
for every backend: where it refuses one, a process is left behind that belongs to no session.
-/
namespace SnippetRunner.Client

variable {c c' c'' : Client} {handle other : String} {i : Nat}

def Ended (c : Client) (i : Nat) : Prop :=
  ∀ p, c.processes[i]? = some p → p.isAlive = false

def Idle (c : Client) (handle : String) : Prop :=
  ∀ i, c.handleOf? i = some handle → c.Ended i

def OnlyAlive (c : Client) (handle : String) (i : Nat) : Prop :=
  ∀ j, c.handleOf? j = some handle → j ≠ i → c.Ended j

/-- The session of a handle has a process of its own, and no other one of the handle is alive. -/
structure Owned (c : Client) (handle : String) : Prop where
  placed : c.Placed handle
  owner : ∀ i, c.handleOf? i = some handle →
    c.Ended i ∨ ∃ s, c.session? handle = some s ∧ s.process = i

section Ending

theorem Calm.handleOf?_eq (h : Calm other c c') (i : Nat) : c'.handleOf? i = c.handleOf? i := by
  cases hnow : c'.processes[i]? with
  | none =>
    cases hbefore : c.handleOf? i with
    | none => rw [handleOf?, hnow]; rfl
    | some name => exact h.handles i name hbefore
  | some p' =>
    obtain ⟨p, hp, hsame, -⟩ := h.ended i p' hnow
    rw [handleOf?, handleOf?, hnow, hp, Option.map_some, Option.map_some, hsame]

theorem Ended.calm (h : c.Ended i) (hcalm : Calm other c c') : c'.Ended i := by
  intro p' hp'
  obtain ⟨p, hp, -, hbefore⟩ := hcalm.ended i p' hp'
  cases halive : p'.isAlive with
  | false => rfl
  | true => exact (hbefore halive).symm.trans (h p hp)

/-- What is done for one handle leaves the processes of another one as they were. -/
theorem Within.handleOf? (h : Within other c c') (hother : handle ≠ other)
    (hi : c'.handleOf? i = some handle) :
    c.handleOf? i = some handle ∧ (c.Ended i → c'.Ended i) := by
  obtain ⟨p, hp, rfl⟩ := Option.map_eq_some_iff.mp hi
  have hbefore := (h.processes i p hother).mp hp
  refine ⟨by rw [Client.handleOf?, hbefore]; rfl, fun hended q hq => ?_⟩
  rw [hp] at hq
  cases hq
  exact hended p hbefore

theorem ended_of_statusOf {status : Int} (h : c.statusOf i = some status) : c.Ended i := by
  intro p hp
  rw [statusOf, hp] at h
  have hstatus : p.status = some status := h
  simp [Process.isAlive, hstatus]

theorem ended_look {status : Int} (h : c.look i = (c', some status)) : c'.Ended i := by
  have hstatus : (c.change i Process.look).statusOf i = some status := congrArg (·.2) h
  have hstate : c.change i Process.look = c' := congrArg (·.1) h
  rw [hstate] at hstatus
  exact ended_of_statusOf hstatus

theorem ended_await {patience : Option Duration} (h : c.await i patience = (c', true)) :
    c'.Ended i := by
  have hsome :
      (((c.record (.waited i patience)).change i Process.await).statusOf i).isSome = true :=
    congrArg (·.2) h
  have hstate : (c.record (.waited i patience)).change i Process.await = c' := congrArg (·.1) h
  rw [hstate] at hsome
  obtain ⟨status, hstatus⟩ := Option.isSome_iff_exists.mp hsome
  exact ended_of_statusOf hstatus

theorem ended_kill (c : Client) (i : Nat) : (c.kill i).Ended i := by
  intro p hp
  rw [kill, change_getElem?, if_pos rfl] at hp
  obtain ⟨q, -, rfl⟩ := Option.map_eq_some_iff.mp hp
  unfold Process.kill Process.isAlive
  split
  · next hstatus => rw [hstatus]; rfl
  · rfl

theorem Owned.onlyAlive {s : Session} (h : c.Owned handle) (hs : c.session? handle = some s) :
    c.OnlyAlive handle s.process := by
  intro j hj hne
  refine (h.owner j hj).resolve_right ?_
  rintro ⟨t, ht, rfl⟩
  rw [hs] at ht
  cases ht
  exact hne rfl

theorem Owned.idle (h : c.Owned handle) (hnone : c.session? handle = none) : c.Idle handle := by
  intro i hi
  refine (h.owner i hi).resolve_right ?_
  rintro ⟨t, ht, -⟩
  rw [hnone] at ht
  cases ht

theorem OnlyAlive.calm (h : c.OnlyAlive handle i) (hcalm : Calm other c c') :
    c'.OnlyAlive handle i := fun j hj hne =>
  (h j (hcalm.handleOf?_eq j ▸ hj) hne).calm hcalm

theorem OnlyAlive.idle (h : c.OnlyAlive handle i) (hended : c.Ended i) : c.Idle handle := by
  intro j hj
  by_cases hji : j = i
  · exact hji ▸ hended
  · exact h j hj hji

theorem Idle.calm (h : c.Idle handle) (hcalm : Calm other c c') : c'.Idle handle := fun i hi =>
  (h i (hcalm.handleOf?_eq i ▸ hi)).calm hcalm

theorem Idle.within (h : c.Idle handle) (hwithin : Within other c c') (hother : handle ≠ other) :
    c'.Idle handle := by
  intro i hi
  obtain ⟨hbefore, hended⟩ := hwithin.handleOf? hother hi
  exact hended (h i hbefore)

theorem Idle.owned (h : c.Idle handle) (hnone : c.session? handle = none) : c.Owned handle where
  placed s hs := by
    rw [hnone] at hs
    cases hs
  owner i hi := .inl (h i hi)

theorem Owned.within (h : c.Owned handle) (hwithin : Within other c c') (hother : handle ≠ other) :
    c'.Owned handle where
  placed s hs := by
    rw [hwithin.sessions handle hother] at hs
    exact hwithin.handles _ _ (h.placed s hs)
  owner i hi := by
    obtain ⟨hbefore, hended⟩ := hwithin.handleOf? hother hi
    rw [hwithin.sessions handle hother]
    exact (h.owner i hbefore).imp_left hended

theorem Owned.calm (h : c.Owned handle) (hcalm : Calm other c c') : c'.Owned handle where
  placed s hs := by
    rw [session?, hcalm.same] at hs
    exact hcalm.handles _ _ (h.placed s hs)
  owner i hi := by
    rw [session?, hcalm.same]
    exact (h.owner i (hcalm.handleOf?_eq i ▸ hi)).imp_left (·.calm hcalm)

end Ending

section Lifecycle

/-- A handle whose backend is not alive has no process that is. -/
theorem isAlive_idle (h : c.Owned handle) (hgone : c.isAlive handle = (c', false)) :
    c'.Idle handle := by
  unfold isAlive at hgone
  split at hgone
  · next hnone =>
    cases hgone
    exact h.idle hnone
  · next s hs =>
    have hlook := calm_look (h.placed s hs)
    cases hlooked : c.look s.process with
    | mk c₁ status =>
      rw [hlooked] at hgone hlook
      cases status with
      | none => cases hgone
      | some status =>
        cases hgone
        exact ((h.onlyAlive hs).calm hlook).idle (ended_look hlooked)

/-- A process that was told to end has ended, if need be because it was killed. -/
theorem finish_idle {s : Session} (h : c.OnlyAlive handle s.process)
    (hplace : c.handleOf? s.process = some handle) (patience : Duration) :
    (c.finish s patience).Idle handle := by
  have hsent := calm_send c handle (c.request s "POST" "/terminate" none)
  have hwaited := hsent.trans (calm_await (some patience) (hsent.handles _ _ hplace))
  unfold finish
  dsimp only
  split
  · next c' hended =>
    rw [hended] at hwaited
    exact (h.calm hwaited).idle (ended_await hended)
  · next c' hliving =>
    rw [hliving] at hwaited
    have hplace' := hwaited.handles _ _ hplace
    have hkilled := ((h.calm hwaited).calm (calm_kill hplace')).idle (ended_kill c' s.process)
    exact hkilled.calm (calm_await none ((calm_kill hplace').handles _ _ hplace'))

theorem terminate_idle (h : c.Owned handle) (patience : Duration) :
    (c.terminate handle patience).Idle handle := by
  unfold terminate
  split
  · next hnone => exact h.idle hnone
  · next s hs =>
    have hplace : (c.drop handle).handleOf? s.process = some handle := h.placed s hs
    have honly : (c.drop handle).OnlyAlive handle s.process := h.onlyAlive hs
    have hlook := calm_look hplace
    split
    · next c' status hlooked =>
      rw [hlooked] at hlook
      exact (honly.calm hlook).idle (ended_look hlooked)
    · next c' hlooked =>
      rw [hlooked] at hlook
      exact finish_idle (honly.calm hlook) (hlook.handles _ _ hplace) patience

theorem terminate_session? (h : c.Placed handle) (patience : Duration) :
    (c.terminate handle patience).session? handle = none := by
  unfold terminate
  split
  · next hnone => exact hnone
  · next s hs =>
    have hplace : (c.drop handle).handleOf? s.process = some handle := h s hs
    have hdropped := session?_drop_self c handle
    have hlook := calm_look hplace
    split
    · next c' status hlooked =>
      rw [hlooked] at hlook
      rw [session?, hlook.same]
      exact hdropped
    · next c' hlooked =>
      rw [hlooked] at hlook
      rw [session?, (calm_finish (hlook.handles _ _ hplace) patience).same, hlook.same]
      exact hdropped

theorem terminate_owned (h : c.Owned handle) (patience : Duration) :
    (c.terminate handle patience).Owned handle :=
  (terminate_idle h patience).owned (terminate_session? h.placed patience)

/-- A backend that did not start has ended, if need be because it was killed. -/
theorem abandon_idle {s : Session} (hs : s.handle = handle) (h : c.OnlyAlive handle s.process)
    (hplace : c.handleOf? s.process = some handle) :
    (c.abandon s).Idle handle ∧ (c.abandon s).session? handle = none := by
  have hdropped := session?_drop_self c handle
  have hplace' : (c.drop handle).handleOf? s.process = some handle := hplace
  have honly : (c.drop handle).OnlyAlive handle s.process := h
  have hlook := calm_look hplace'
  unfold abandon
  rw [hs]
  split
  · next c' status hlooked =>
    rw [hlooked] at hlook
    rw [session?, hlook.same]
    exact ⟨(honly.calm hlook).idle (ended_look hlooked), hdropped⟩
  · next c' hlooked =>
    rw [hlooked] at hlook
    have hkill := calm_kill (hlook.handles _ _ hplace')
    rw [session?, hkill.same, hlook.same]
    exact ⟨((honly.calm hlook).calm hkill).idle (ended_kill c' s.process), hdropped⟩

theorem enter_processes (c : Client) (s : Session) : (c.enter s).processes = c.processes := by
  unfold enter
  split <;> rfl

/-- The only process of an idle handle that is alive after a launch is the new one. -/
theorem launch_owned {s : Session} (h : c.Idle handle) (hopened : c.launch handle = (c', .ok s)) :
    c'.Owned handle ∧ c'.session? handle = some s := by
  have hplace := launch_placed hopened
  obtain ⟨port, rfl, rfl⟩ := launch_ok hopened
  generalize hspawned : c.findPort.1.spawn handle port = spawned at hplace ⊢
  have hhandle : spawned.2.handle = handle := hspawned ▸ rfl
  have hnew : spawned.2.process = c.processes.length := hspawned ▸ rfl
  have hprocesses : (spawned.1.enter spawned.2).processes =
      c.processes ++ [⟨handle, c.around.conducts c.processes.length, 0, none⟩] := by
    rw [enter_processes, ← hspawned]
    rfl
  have hsession : (spawned.1.enter spawned.2).session? handle = some spawned.2 := by
    rw [session?_enter]
    exact if_pos hhandle
  refine ⟨⟨fun s hs => ?_, fun i hi => ?_⟩, hsession⟩
  · rw [hsession] at hs
    cases hs
    exact hplace
  · by_cases hold : i < c.processes.length
    · have hsame : (spawned.1.enter spawned.2).processes[i]? = c.processes[i]? := by
        rw [hprocesses, List.getElem?_append_left hold]
      rw [handleOf?, hsame] at hi
      refine .inl fun p hp => h i hi p ?_
      rwa [← hsame]
    · refine .inr ⟨_, hsession, ?_⟩
      obtain ⟨p, hp, -⟩ := Option.map_eq_some_iff.mp hi
      have hlt := (List.getElem?_eq_some_iff.mp hp).1
      rw [hprocesses, List.length_append, List.length_singleton] at hlt
      omega

/-- At an attempt a session is opened for the backend that is launched, if one is. -/
def Accepts (c : Client) (attempt : Nat) : Prop :=
  ∀ port, c.around.ports attempt = .ok port →
    c.around.refusal (c.address port) c.settings.apiKey = none

/-- At an attempt no session is opened for the backend that is launched, if one is. -/
def Refuses (c : Client) (attempt : Nat) : Prop :=
  ∀ port, c.around.ports attempt = .ok port →
    ∃ failure, c.around.refusal (c.address port) c.settings.apiKey = some failure

theorem Accepts.alike {attempt : Nat} (h : c.Accepts attempt) (halike : Alike c c') :
    c'.Accepts attempt := by
  unfold Accepts address at h ⊢
  rwa [halike.around, halike.settings]

theorem Refuses.alike {attempt : Nat} (h : c.Refuses attempt) (halike : Alike c c') :
    c'.Refuses attempt := by
  unfold Refuses address at h ⊢
  rwa [halike.around, halike.settings]

theorem start_owned (haccepts : c.Accepts c.attempts) (h : c.Owned handle) :
    (c.start handle).1.Owned handle ∧
      ∀ failure, (c.start handle).2 = .error failure → (c.start handle).1.Idle handle := by
  have halive := calm_isAlive h.placed
  unfold start
  split
  · next c' hliving =>
    rw [hliving] at halive
    exact ⟨h.calm halive, fun failure hfailed => by cases hfailed⟩
  · next c' hgone =>
    rw [hgone] at halive
    have hidle := isAlive_idle h hgone
    split
    · next c'' failure hfailed =>
      rcases c'.launch_cases handle with ⟨failure', hvacant⟩ |
        ⟨port, failure', hport, hrefused, -⟩ | ⟨port, hopened⟩
      · -- Without a port nothing was launched.
        cases hfailed.symm.trans hvacant
        exact ⟨⟨(h.calm halive).placed, (h.calm halive).owner⟩, fun _ _ => hidle⟩
      · have haccepted := (halive.attempts ▸ haccepts.alike halive.toAlike) port hport
        rw [hrefused] at haccepted
        cases haccepted
      · cases hfailed.symm.trans hopened
    · next c'' s hopened =>
      obtain ⟨hopen, hsession⟩ := launch_owned hidle hopened
      have hready := calm_waitReady (launch_placed hopened) c''.questions none
      split
      · next last hanswered =>
        rw [hanswered] at hready
        exact ⟨hopen.calm hready, fun failure hfailed => by cases hfailed⟩
      · next last fault hfailed =>
        rw [hfailed] at hready
        obtain ⟨hended, hnone⟩ := abandon_idle (session?_handle hsession)
          ((hopen.onlyAlive hsession).calm hready) (hready.handles _ _ (launch_placed hopened))
        exact ⟨hended.owned hnone, fun _ _ => hended⟩

end Lifecycle

section Attempts

theorem launch_attempts (c : Client) (handle : String) :
    (c.launch handle).1.attempts = c.attempts + 1 := by
  have henter (c : Client) (s : Session) : (c.enter s).attempts = c.attempts := by
    unfold enter
    split <;> rfl
  rcases c.launch_cases handle with ⟨failure, hfailed⟩ | ⟨port, failure, -, -, hfailed⟩ |
    ⟨port, hopened⟩
  · rw [hfailed]
    rfl
  · rw [hfailed]
    rfl
  · rw [hopened, henter]
    rfl

theorem abandon_attempts {s : Session} (hs : s.handle = handle)
    (hplace : c.handleOf? s.process = some handle) : (c.abandon s).attempts = c.attempts := by
  have hplace' : (c.drop handle).handleOf? s.process = some handle := hplace
  have hlook := calm_look hplace'
  unfold abandon
  rw [hs]
  split
  · next c' status hlooked =>
    rw [hlooked] at hlook
    exact hlook.attempts
  · next c' hlooked =>
    rw [hlooked] at hlook
    exact (hlook.trans (calm_kill (hlook.handles _ _ hplace'))).attempts

theorem terminate_attempts (h : c.Placed handle) (patience : Duration) :
    (c.terminate handle patience).attempts = c.attempts := by
  unfold terminate
  split
  · rfl
  · next s hs =>
    have hplace : (c.drop handle).handleOf? s.process = some handle := h s hs
    have hlook := calm_look hplace
    split
    · next c' status hlooked =>
      rw [hlooked] at hlook
      exact hlook.attempts
    · next c' hlooked =>
      rw [hlooked] at hlook
      exact (hlook.trans (calm_finish (hlook.handles _ _ hplace) patience)).attempts

theorem isAlive_of_absent (h : c.session? handle = none) : c.isAlive handle = (c, false) := by
  rw [isAlive, h]

theorem start_attempts (h : c.session? handle = none) :
    (c.start handle).1.attempts = c.attempts + 1 := by
  have hattempts := c.launch_attempts handle
  unfold start
  rw [isAlive_of_absent h]
  dsimp only
  split
  · next c' failure hfailed =>
    rw [hfailed] at hattempts
    exact hattempts
  · next c' s hopened =>
    rw [hopened] at hattempts
    have hplace := launch_placed hopened
    have hready := calm_waitReady hplace c'.questions none
    split
    · next last hanswered =>
      rw [hanswered] at hready
      exact hready.attempts.trans hattempts
    · next last fault hfailed =>
      rw [hfailed] at hready
      obtain ⟨port, hs, -⟩ := launch_ok hopened
      have habandoned := abandon_attempts (hs ▸ rfl) (hready.handles _ _ hplace)
      exact habandoned.trans (hready.attempts.trans hattempts)

/-- Starting a handle once more makes exactly one attempt. -/
theorem restart_attempts (h : c.Placed handle) :
    (c.restart handle).1.attempts = c.attempts + 1 := by
  rw [restart, start_attempts (terminate_session? h patience), terminate_attempts h patience]

theorem start_of_refused {port : Nat} {failure : Failure} (h : c.session? handle = none)
    (hport : c.around.ports c.attempts = .ok port)
    (hrefused : c.around.refusal (c.address port) c.settings.apiKey = some failure) :
    c.start handle = ((c.findPort.1.spawn handle port).1, .error failure) := by
  rw [start, isAlive_of_absent h]
  dsimp only
  rw [launch_of_refused hport hrefused]

theorem start_of_vacant {failure : Failure} (h : c.session? handle = none)
    (hport : c.around.ports c.attempts = .error failure) :
    c.start handle = (c.findPort.1, .error failure) := by
  rw [start, isAlive_of_absent h]
  dsimp only
  rw [launch_of_vacant hport]

end Attempts

inductive Call
  | start (handle : String)
  | isAlive (handle : String)
  | run (handle : String) (order : RunOrder)
  | clean (handle : String)
  | output (handle : String) (after : Int)
  | terminate (handle : String) (patience : Duration)
  | restart (handle : String)
  | close

namespace Call

def handle? : Call → Option String
  | .start handle | .isAlive handle | .run handle _ | .clean handle | .output handle _
  | .terminate handle _ | .restart handle => some handle
  | .close => none

def perform (c : Client) : Call → Client
  | .start handle => (c.start handle).1
  | .isAlive handle => (c.isAlive handle).1
  | .run handle order => (c.run handle order).1
  | .clean handle => (c.clean handle).1
  | .output handle after => (c.output handle after).1
  | .terminate handle patience => c.terminate handle patience
  | .restart handle => (c.restart handle).1
  | .close => c.close

theorem perform_within {call : Call} (h : c.Placed handle) (hcall : call.handle? = some handle) :
    Within handle c (call.perform c) := by
  cases call with
  | close => cases hcall
  | start =>
    cases hcall
    exact within_start h
  | isAlive =>
    cases hcall
    exact (calm_isAlive h).toWithin
  | run =>
    cases hcall
    exact (calm_ask h ..).toWithin
  | clean =>
    cases hcall
    exact (calm_clean h).toWithin
  | output =>
    cases hcall
    exact (calm_ask h ..).toWithin
  | terminate =>
    cases hcall
    exact within_terminate h _
  | restart =>
    cases hcall
    refine (within_terminate h patience).trans (within_start fun s hs => ?_)
    rw [terminate_session? h patience] at hs
    cases hs

end Call

def quit (c : Client) (i : Nat) (status : Int) : Client :=
  c.change i fun p => { p with status := p.status.or (some status) }

inductive Step (c : Client) : Client → Prop
  | call (call : Call) : Step c (call.perform c)
  | quit (i : Nat) (status : Int) : Step c (c.quit i status)

/-- Any number of calls, between which processes may end. -/
abbrev Run : Client → Client → Prop := Relation.ReflTransGen Step

structure Unused (c : Client) : Prop where
  attempts : c.attempts = 0
  processes : c.processes = []
  sessions : c.sessions = []
  events : c.events = []

/-- The backends of a client at a moment, and what becomes of them by the next call. -/
structure Tidy (c : Client) : Prop where
  owned : ∀ (i : Nat) p, c.processes[i]? = some p → p.isAlive = true →
    ∃ s, c.session? p.handle = some s ∧ s.process = i
  one : ∀ (i j : Nat) p q, c.processes[i]? = some p → c.processes[j]? = some q →
    p.isAlive = true → q.isAlive = true → p.handle = q.handle → i = j
  /-- A backend that is alive is not launched again. -/
  again : ∀ handle, (c.isAlive handle).2 = true → (c.start handle).2 = .ok handle ∧
    (c.start handle).1.processes.length = c.processes.length ∧
    (c.start handle).1.events = c.events
  failed : ∀ handle failure, (c.start handle).2 = .error failure → (c.start handle).1.Idle handle
  terminated : ∀ handle patience, (c.terminate handle patience).Idle handle
  closed : ∀ p ∈ c.close.processes, p.isAlive = false
  /-- A call about one handle is none about another one. -/
  apart : ∀ (call : Call) handle, call.handle? = some handle → Within handle c (call.perform c)

section Calls

def Sound (c : Client) : Prop := ∀ handle, c.Owned handle

theorem Sound.within (h : c.Sound) (hwithin : Within handle c c') (howned : c'.Owned handle) :
    c'.Sound := by
  intro other
  by_cases hother : other = handle
  · exact hother ▸ howned
  · exact (h other).within hwithin hother

theorem Sound.calm (h : c.Sound) (hcalm : Calm handle c c') : c'.Sound := fun other =>
  (h other).calm hcalm

theorem Sound.terminate (h : c.Sound) (handle : String) (patience : Duration) :
    (c.terminate handle patience).Sound :=
  h.within (within_terminate (h handle).placed patience) (terminate_owned (h handle) patience)

/-- Terminating one handle after the other: those that were named have ended. -/
theorem Sound.terminateAll (h : c.Sound) (patience : Duration) (handles : List String) :
    (handles.foldl (fun c handle => c.terminate handle patience) c).Sound ∧
      Alike c (handles.foldl (fun c handle => c.terminate handle patience) c) ∧
      ∀ handle, handle ∈ handles ∨ c.Idle handle →
        (handles.foldl (fun c handle => c.terminate handle patience) c).Idle handle := by
  induction handles generalizing c with
  | nil => exact ⟨h, ⟨rfl, rfl⟩, fun handle hidle => hidle.resolve_left List.not_mem_nil⟩
  | cons first rest ih =>
    have hwithin := within_terminate (h first).placed patience
    obtain ⟨hsound, halike, hidle⟩ := ih (h.terminate first patience)
    refine ⟨hsound, hwithin.toAlike.trans halike, fun handle hnamed => hidle handle ?_⟩
    by_cases hfirst : handle = first
    · exact .inr (hfirst ▸ terminate_idle (h first) patience)
    · rcases hnamed with hnamed | hbefore
      · exact .inl ((List.mem_cons.mp hnamed).resolve_left hfirst)
      · exact .inr (hbefore.within hwithin hfirst)

theorem Sound.close (h : c.Sound) :
    c.close.Sound ∧ Alike c c.close ∧ ∀ handle, c.close.Idle handle := by
  obtain ⟨hsound, halike, hidle⟩ := h.terminateAll patience c.handles
  refine ⟨hsound, halike, fun handle => hidle handle ?_⟩
  by_cases hnamed : handle ∈ c.handles
  · exact .inl hnamed
  · refine .inr ((h handle).idle (List.find?_eq_none.mpr fun s hs hsame => hnamed ?_))
    exact beq_iff_eq.mp hsame ▸ List.mem_map_of_mem hs

theorem ends_quit (status : Int) :
    Ends fun p => { p with status := p.status.or (some status) } where
  handle _ := rfl
  still p h := by
    obtain ⟨old, hold⟩ := Option.isSome_iff_exists.mp (Option.isNone_eq_false_iff.mp h)
    have hkept : p.status.or (some status) = p.status := by rw [hold]; rfl
    rw [hkept]

theorem quit_calm (c : Client) (i : Nat) (status : Int) :
    ∃ handle, Calm handle c (c.quit i status) := by
  cases hi : c.handleOf? i with
  | none =>
    have hnone : c.processes[i]? = none := Option.map_eq_none_iff.mp hi
    have hsame : c.quit i status = c := by simp [quit, change, hnone]
    exact ⟨"", hsame.symm ▸ .refl "" c⟩
  | some handle => exact ⟨handle, calm_change (ends_quit status) hi⟩

theorem Sound.restart (h : c.Sound) (haccepts : c.Accepts c.attempts) (handle : String) :
    (c.restart handle).1.Sound ∧ Alike c (c.restart handle).1 := by
  have hplaced := (h handle).placed
  have hended := terminate_owned (h handle) patience
  have hterminated := within_terminate hplaced patience
  have haccepts' := haccepts.alike hterminated.toAlike
  rw [← terminate_attempts hplaced patience] at haccepts'
  have hwithin := (Call.restart handle).perform_within hplaced rfl
  exact ⟨h.within hwithin (start_owned haccepts' hended).1, hwithin.toAlike⟩

theorem Sound.step (h : c.Sound) (haccepts : ∀ attempt, c.Accepts attempt)
    (hstep : Step c c') : c'.Sound ∧ Alike c c' := by
  cases hstep with
  | quit i status =>
    obtain ⟨handle, hcalm⟩ := quit_calm c i status
    exact ⟨h.calm hcalm, hcalm.toAlike⟩
  | call call =>
    cases hcall : call.handle? with
    | none =>
      cases call with
      | close => exact ⟨h.close.1, h.close.2.1⟩
      | _ => cases hcall
    | some handle =>
      have hplaced := (h handle).placed
      have hwithin := Call.perform_within hplaced hcall
      refine ⟨h.within hwithin ?_, hwithin.toAlike⟩
      cases call with
      | close => cases hcall
      | start =>
        cases hcall
        exact (start_owned (haccepts _) (h handle)).1
      | isAlive =>
        cases hcall
        exact (h handle).calm (calm_isAlive hplaced)
      | run =>
        cases hcall
        exact (h handle).calm (calm_ask hplaced ..)
      | clean =>
        cases hcall
        exact (h handle).calm (calm_clean hplaced)
      | output =>
        cases hcall
        exact (h handle).calm (calm_ask hplaced ..)
      | terminate =>
        cases hcall
        exact terminate_owned (h handle) _
      | restart =>
        cases hcall
        exact (h.restart (haccepts _) handle).1 handle

theorem Sound.run (h : c.Sound) (haccepts : ∀ attempt, c.Accepts attempt)
    (hrun : Run c c') : c'.Sound ∧ Alike c c' := by
  induction hrun with
  | refl => exact ⟨h, rfl, rfl⟩
  | tail _ hstep ih =>
    obtain ⟨hsound, halike⟩ := ih
    obtain ⟨hsound', halike'⟩ := hsound.step (fun n => (haccepts n).alike halike) hstep
    exact ⟨hsound', halike.trans halike'⟩

theorem Unused.sound (h : c.Unused) : c.Sound := by
  intro handle
  have hidle : c.Idle handle := by
    intro i hi
    simp [handleOf?, h.processes] at hi
  exact hidle.owned (by simp [session?, h.sessions])

theorem start_again (halive : (c.isAlive handle).2 = true) : (c.start handle).2 = .ok handle ∧
    (c.start handle).1.processes.length = c.processes.length ∧
    (c.start handle).1.events = c.events := by
  have hstart : c.start handle = ((c.isAlive handle).1, .ok handle) := by
    unfold start
    split
    · next c' h => rw [h]
    · next c' h =>
      rw [h] at halive
      cases halive
  rw [hstart]
  refine ⟨rfl, ?_⟩
  unfold isAlive at halive ⊢
  split
  · exact ⟨rfl, rfl⟩
  · unfold look change
    dsimp only
    split <;> simp

theorem Sound.tidy (h : c.Sound) (haccepts : c.Accepts c.attempts) : c.Tidy := by
  have howned : ∀ (i : Nat) p, c.processes[i]? = some p → p.isAlive = true →
      ∃ s, c.session? p.handle = some s ∧ s.process = i := by
    intro i p hp halive
    have hi : c.handleOf? i = some p.handle := by rw [handleOf?, hp]; rfl
    refine ((h p.handle).owner i hi).resolve_left fun hended => ?_
    rw [hended p hp] at halive
    cases halive
  refine ⟨howned, ?_, fun _ => start_again, fun handle => (start_owned haccepts (h handle)).2,
    fun handle patience => terminate_idle (h handle) patience, ?_,
    fun call handle hcall => Call.perform_within (h handle).placed hcall⟩
  · intro i j p q hp hq hpalive hqalive hsame
    obtain ⟨s, hs, rfl⟩ := howned i p hp hpalive
    obtain ⟨t, ht, rfl⟩ := howned j q hq hqalive
    rw [hsame, ht] at hs
    cases hs
    rfl
  · intro p hp
    obtain ⟨i, hi⟩ := List.mem_iff_getElem?.mp hp
    exact h.close.2.2 p.handle i (by rw [handleOf?, hi]; rfl) p hi

end Calls

section Leak

/-- A backend for which no session is opened belongs to none. -/
theorem not_tidy_of_refused {port : Nat} {failure : Failure} (h : c.session? handle = none)
    (hport : c.around.ports c.attempts = .ok port)
    (hrefused : c.around.refusal (c.address port) c.settings.apiKey = some failure) :
    ¬ (c.start handle).1.Tidy := by
  intro htidy
  rw [start_of_refused h hport hrefused] at htidy
  have hnew : (c.findPort.1.spawn handle port).1.processes[c.processes.length]? =
      some ⟨handle, c.around.conducts c.processes.length, 0, none⟩ := by
    rw [spawn_processes]
    exact List.getElem?_concat_length
  obtain ⟨s, hs, -⟩ := htidy.owned _ _ hnew rfl
  have hnone : (c.findPort.1.spawn handle port).1.session? handle = none := h
  rw [hnone] at hs
  cases hs

/-- If a client always looks after its backends, a session is opened at the next attempt. -/
theorem Sound.accepts (h : c.Sound) (htidy : ∀ c', Run c c' → c'.Tidy) : c.Accepts c.attempts := by
  intro port hport
  have hplaced := (h "").placed
  have hterminated := within_terminate hplaced patience
  by_contra hsome
  obtain ⟨failure, hrefused⟩ := Option.ne_none_iff_exists'.mp hsome
  have hport' : (c.terminate "" patience).around.ports (c.terminate "" patience).attempts =
      .ok port := by
    rw [hterminated.around, terminate_attempts hplaced, hport]
  have hrefused' : (c.terminate "" patience).around.refusal
      ((c.terminate "" patience).address port) (c.terminate "" patience).settings.apiKey =
      some failure := by
    rw [address, hterminated.around, hterminated.settings]
    exact hrefused
  exact not_tidy_of_refused (terminate_session? hplaced patience) hport' hrefused'
    (htidy _ (.single (.call (.restart ""))))

/-- Any attempt can be reached by starting one handle again and again. -/
theorem Sound.reaches (h : c.Sound) (htidy : ∀ c', Run c c' → c'.Tidy) (more : Nat) :
    ∃ c', Run c c' ∧ c'.Sound ∧ Alike c c' ∧ c'.attempts = c.attempts + more := by
  induction more with
  | zero => exact ⟨c, .refl, h, ⟨rfl, rfl⟩, rfl⟩
  | succ more ih =>
    obtain ⟨c', hrun, hsound, halike, hattempts⟩ := ih
    have haccepts := hsound.accepts fun _ hlater => htidy _ (hrun.trans hlater)
    obtain ⟨hsound', halike'⟩ := hsound.restart haccepts ""
    refine ⟨_, hrun.tail (.call (.restart "")), hsound', halike.trans halike', ?_⟩
    rw [Call.perform, restart_attempts (hsound "").placed, hattempts]
    rfl

/-- Nothing was registered and nothing killed. -/
structure Bare (c : Client) : Prop where
  sessions : c.sessions = []
  killed : ∀ i, .killed i ∉ c.events

theorem Bare.session? (h : c.Bare) (handle : String) : c.session? handle = none := by
  simp [Client.session?, h.sessions]

/-- A start that is refused leaves its process behind. -/
theorem Bare.start (h : c.Bare) (hrefuses : c.Refuses c.attempts) (handle : String) :
    (c.start handle).1.Bare ∧ Alike c (c.start handle).1 := by
  cases hport : c.around.ports c.attempts with
  | error failure =>
    rw [start_of_vacant (h.session? handle) hport]
    exact ⟨⟨h.sessions, h.killed⟩, rfl, rfl⟩
  | ok port =>
    obtain ⟨failure, hrefused⟩ := hrefuses port hport
    rw [start_of_refused (h.session? handle) hport hrefused]
    refine ⟨⟨h.sessions, fun i hi => ?_⟩, rfl, rfl⟩
    rcases List.mem_cons.mp hi with hnew | hold
    · cases hnew
    · exact h.killed i hold

theorem Bare.active (h : c.Bare) (handle : String) :
    c.active handle = (c, .error (.backendUnreachable (.notStarted handle))) := by
  rw [Client.active, h.session? handle]

theorem Bare.ask (h : c.Bare) (handle method path : String) (body : Option Json)
    (refusal : String → BackendFault) : c.ask handle method path body refusal =
      (c, .error (.backendUnreachable (.notStarted handle))) := by
  rw [Client.ask, h.active handle]

/-- A call starts a handle, or it does nothing. -/
theorem Bare.perform (h : c.Bare) (call : Call) :
    call.perform c = c ∨ ∃ handle, call.perform c = (c.start handle).1 := by
  have hterminated (handle : String) (patience : Duration) : c.terminate handle patience = c := by
    rw [terminate, h.session? handle]
  cases call with
  | start handle => exact .inr ⟨handle, rfl⟩
  | isAlive handle =>
    left
    rw [Call.perform, isAlive, h.session? handle]
  | run handle order =>
    left
    rw [Call.perform, run, post, h.ask]
  | clean handle =>
    left
    rw [Call.perform, clean, post, h.ask]
  | output handle after =>
    left
    rw [Call.perform, output, h.ask]
  | terminate handle patience => exact .inl (hterminated handle patience)
  | restart handle =>
    refine .inr ⟨handle, ?_⟩
    rw [Call.perform, Client.restart, hterminated]
  | close =>
    left
    have hnobody : c.handles = [] := by simp [handles, h.sessions]
    rw [Call.perform, close, hnobody]
    rfl

theorem Bare.step (h : c.Bare) (hrefuses : ∀ attempt, c.Refuses attempt) (hstep : Step c c') :
    c'.Bare ∧ Alike c c' := by
  cases hstep with
  | quit i status =>
    unfold quit change
    split
    · exact ⟨h, rfl, rfl⟩
    · exact ⟨⟨h.sessions, h.killed⟩, rfl, rfl⟩
  | call call =>
    rcases h.perform call with hsame | ⟨handle, hstarted⟩
    · rw [hsame]
      exact ⟨h, rfl, rfl⟩
    · rw [hstarted]
      exact h.start (hrefuses _) handle

theorem Bare.run (h : c.Bare) (hrefuses : ∀ attempt, c.Refuses attempt) (hrun : Run c c') :
    c'.Bare ∧ Alike c c' := by
  induction hrun with
  | refl => exact ⟨h, rfl, rfl⟩
  | tail _ hstep ih =>
    obtain ⟨hbare, halike⟩ := ih
    obtain ⟨hbare', halike'⟩ := hbare.step (fun n => (hrefuses n).alike halike) hstep
    exact ⟨hbare', halike.trans halike'⟩

theorem Unused.bare (h : c.Unused) : c.Bare :=
  ⟨h.sessions, by simp [h.events]⟩

end Leak

/-- A client looks after its backends just if the library opens a session for each of them. A
client for which it opens none launches a process with every start that finds a port, fails, and
neither registers nor kills one: what it launched stays alive until it ends by itself. -/
theorem tidy_iff_accepted (hunused : c.Unused) :
    ((∀ c', Run c c' → c'.Tidy) ↔ ∀ attempt, c.Accepts attempt) ∧
      ((∀ attempt, c.Refuses attempt) → ∀ c', Run c c' →
        c'.sessions = [] ∧ (∀ i, .killed i ∉ c'.events) ∧
        ∀ handle port, c.around.ports c'.attempts = .ok port → ∃ failure p,
          c.around.refusal (c.address port) c.settings.apiKey = some failure ∧
          (c'.start handle).2 = .error failure ∧
          (c'.start handle).1.processes = c'.processes ++ [p] ∧ p.handle = handle ∧
          p.isAlive = true) := by
  refine ⟨⟨fun htidy attempt => ?_, fun haccepts c' hrun => ?_⟩, fun hrefuses c' hrun => ?_⟩
  · obtain ⟨c', hrun, hsound, halike, hattempts⟩ := hunused.sound.reaches htidy attempt
    have haccepts := hsound.accepts fun _ hlater => htidy _ (hrun.trans hlater)
    rw [hattempts, hunused.attempts, Nat.zero_add] at haccepts
    exact haccepts.alike ⟨halike.settings.symm, halike.around.symm⟩
  · obtain ⟨hsound, halike⟩ := hunused.sound.run haccepts hrun
    exact hsound.tidy ((haccepts _).alike halike)
  · obtain ⟨hbare, halike⟩ := hunused.bare.run hrefuses hrun
    refine ⟨hbare.sessions, hbare.killed, fun handle port hport => ?_⟩
    obtain ⟨failure, hrefused⟩ := hrefuses _ port hport
    have hport' : c'.around.ports c'.attempts = .ok port := by rw [halike.around, hport]
    have hrefused' : c'.around.refusal (c'.address port) c'.settings.apiKey = some failure := by
      rw [address, halike.around, halike.settings]
      exact hrefused
    rw [start_of_refused (hbare.session? handle) hport' hrefused']
    exact ⟨failure, _, hrefused, rfl, rfl, rfl, rfl⟩

/-- A client with a key whose library finds fault with keys only, and whose network is down. -/
def clientOf (key : String) : Client where
  settings := { home := ⟨.root, []⟩, workDir := ⟨.root, []⟩, apiKey := key }
  around := { ports _ := .ok 40001, conducts _ := {}, refusal := Surroundings.refuseKey }
  wire := .down

/-- An umlaut in the key is enough for backends to be left behind; no key at all is none. -/
theorem tidy_iff_accepted_umlaut :
    (clientOf "schlüssel").Unused ∧ ¬ (∀ c', Run (clientOf "schlüssel") c' → c'.Tidy) ∧
      ((clientOf "schlüssel").start "buf").1.processes.map (·.isAlive) = [true] ∧
      ((clientOf "schlüssel").start "buf").1.sessions = [] ∧
      (clientOf "").Unused ∧ ∀ c', Run (clientOf "") c' → c'.Tidy := by
  have hunused (key : String) : (clientOf key).Unused := ⟨rfl, rfl, rfl, rfl⟩
  refine ⟨hunused _, fun htidy => ?_, by decide, by decide, hunused _, ?_⟩
  · have haccepts := (tidy_iff_accepted (hunused "schlüssel")).1.mp htidy 0 40001 rfl
    exact absurd haccepts (by decide)
  · exact (tidy_iff_accepted (hunused "")).1.mpr fun _ _ _ => rfl

end SnippetRunner.Client
