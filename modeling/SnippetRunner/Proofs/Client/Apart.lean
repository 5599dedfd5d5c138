import SnippetRunner.Client.Lifecycle
import SnippetRunner.Client.Request

/-!
What the operations on one handle leave alone. Sessions and processes of other handles stay as
they are, and only processes of the handle itself are killed. Most of what an operation consists
of leaves all sessions as they are, and processes can only end by it.
-/
namespace SnippetRunner.Client

variable {c c' c'' : Client} {handle : String} {i : Nat}

def handleOf? (c : Client) (i : Nat) : Option String :=
  c.processes[i]?.map (·.handle)

structure Alike (c c' : Client) : Prop where
  settings : c'.settings = c.settings
  around : c'.around = c.around

structure Within (handle : String) (c c' : Client) : Prop extends Alike c c' where
  sessions : ∀ other, other ≠ handle → c'.session? other = c.session? other
  processes : ∀ (i : Nat) (p : Process), p.handle ≠ handle →
    (c'.processes[i]? = some p ↔ c.processes[i]? = some p)
  handles : ∀ i name, c.handleOf? i = some name → c'.handleOf? i = some name
  killed : ∃ events, c'.events = events ++ c.events ∧
    ∀ i, .killed i ∈ events → c'.handleOf? i = some handle

structure Calm (handle : String) (c c' : Client) : Prop extends Within handle c c' where
  attempts : c'.attempts = c.attempts
  same : c'.sessions = c.sessions
  ended : ∀ (i : Nat) p', c'.processes[i]? = some p' → ∃ p, c.processes[i]? = some p ∧
    p'.handle = p.handle ∧ (p'.isAlive = true → p.isAlive = true)

theorem Alike.trans (h : Alike c c') (h' : Alike c' c'') : Alike c c'' :=
  ⟨h'.settings.trans h.settings, h'.around.trans h.around⟩

theorem Within.refl (handle : String) (c : Client) : Within handle c c :=
  ⟨⟨rfl, rfl⟩, fun _ _ => rfl, fun _ _ _ => .rfl, fun _ _ h => h, [], rfl, by simp⟩

theorem Within.trans (h : Within handle c c') (h' : Within handle c' c'') :
    Within handle c c'' where
  toAlike := h.toAlike.trans h'.toAlike
  sessions other hother := (h'.sessions other hother).trans (h.sessions other hother)
  processes i p hp := (h'.processes i p hp).trans (h.processes i p hp)
  handles i name hname := h'.handles i name (h.handles i name hname)
  killed := by
    obtain ⟨first, hfirst, hkilled⟩ := h.killed
    obtain ⟨second, hsecond, hkilled'⟩ := h'.killed
    refine ⟨second ++ first, by rw [hsecond, hfirst, List.append_assoc], fun i hi => ?_⟩
    rcases List.mem_append.mp hi with hi | hi
    · exact hkilled' i hi
    · exact h'.handles i handle (hkilled i hi)

theorem Calm.refl (handle : String) (c : Client) : Calm handle c c :=
  ⟨.refl handle c, rfl, rfl, fun _ p hp => ⟨p, hp, rfl, id⟩⟩

theorem Calm.trans (h : Calm handle c c') (h' : Calm handle c' c'') : Calm handle c c'' where
  toWithin := h.toWithin.trans h'.toWithin
  attempts := h'.attempts.trans h.attempts
  same := h'.same.trans h.same
  ended i p'' hp'' := by
    obtain ⟨p', hp', hhandle', halive'⟩ := h'.ended i p'' hp''
    obtain ⟨p, hp, hhandle, halive⟩ := h.ended i p' hp'
    exact ⟨p, hp, hhandle'.trans hhandle, fun hnow => halive (halive' hnow)⟩

section Moments

/-- Nothing happened to sessions and processes, and what was done killed none. -/
theorem calm_same (events : List ClientEvent) (hsettings : c'.settings = c.settings)
    (haround : c'.around = c.around) (hattempts : c'.attempts = c.attempts)
    (hsessions : c'.sessions = c.sessions) (hprocesses : c'.processes = c.processes)
    (hevents : c'.events = events ++ c.events) (hkilled : ∀ i, .killed i ∉ events) :
    Calm handle c c' where
  settings := hsettings
  around := haround
  sessions other _ := by rw [session?, session?, hsessions]
  processes i p _ := by rw [hprocesses]
  handles i name hname := by rwa [handleOf?, hprocesses]
  killed := ⟨events, hevents, fun i hi => absurd hi (hkilled i)⟩
  attempts := hattempts
  same := hsessions
  ended i p hp := ⟨p, by rwa [← hprocesses], rfl, id⟩

theorem calm_send (c : Client) (handle : String) (request : HttpRequest) :
    Calm handle c (c.send request).1 :=
  calm_same [.sent request] rfl rfl rfl rfl rfl rfl (by simp)

theorem calm_sleep (c : Client) (handle : String) (milliseconds : Nat) :
    Calm handle c (c.sleep milliseconds) :=
  calm_same [] rfl rfl rfl rfl rfl rfl (by simp)

/-- A change after which a process belongs to the same handle, and which does nothing to one
that has ended. -/
structure Ends (f : Process → Process) : Prop where
  handle : ∀ p, (f p).handle = p.handle
  still : ∀ p, p.isAlive = false → f p = p

theorem Ends.alive {f : Process → Process} (hf : Ends f) {p : Process}
    (h : (f p).isAlive = true) : p.isAlive = true := by
  cases halive : p.isAlive with
  | true => rfl
  | false =>
    rw [hf.still p halive, halive] at h
    cases h

theorem ends_look : Ends Process.look where
  handle p := by
    unfold Process.look
    split <;> rfl
  still p h := by
    obtain ⟨status, hstatus⟩ := Option.isSome_iff_exists.mp (Option.isNone_eq_false_iff.mp h)
    simp [Process.look, hstatus]

theorem ends_await : Ends Process.await where
  handle p := by
    unfold Process.await
    split
    · rfl
    · split <;> rfl
  still p h := by
    obtain ⟨status, hstatus⟩ := Option.isSome_iff_exists.mp (Option.isNone_eq_false_iff.mp h)
    simp [Process.await, hstatus]

theorem ends_kill : Ends Process.kill where
  handle p := by
    unfold Process.kill
    split <;> rfl
  still p h := by
    obtain ⟨status, hstatus⟩ := Option.isSome_iff_exists.mp (Option.isNone_eq_false_iff.mp h)
    simp [Process.kill, hstatus]

theorem change_getElem? (c : Client) (i j : Nat) (f : Process → Process) :
    (c.change i f).processes[j]? = if i = j then c.processes[j]?.map f else c.processes[j]? := by
  unfold change
  split
  · next hnone =>
    split
    · next hij => rw [← hij, hnone]; rfl
    · rfl
  · next p hp =>
    rw [List.getElem?_set]
    split
    · next hij =>
      obtain ⟨hlt, hget⟩ := List.getElem?_eq_some_iff.mp hp
      rw [← hij, hp, if_pos hlt]
      rfl
    · rfl

theorem handleOf?_change {f : Process → Process} (hf : Ends f) (c : Client) (i j : Nat) :
    (c.change i f).handleOf? j = c.handleOf? j := by
  unfold handleOf?
  rw [change_getElem?]
  split
  · rw [Option.map_map]
    congr 1
    funext p
    exact hf.handle p
  · rfl

theorem calm_change {f : Process → Process} (hf : Ends f) (hi : c.handleOf? i = some handle) :
    Calm handle c (c.change i f) where
  settings := by unfold change; split <;> rfl
  around := by unfold change; split <;> rfl
  sessions other _ := by unfold change; split <;> rfl
  processes j p hp := by
    rw [change_getElem?]
    split
    · next hij =>
      subst hij
      obtain ⟨q, hq, hhandle⟩ := Option.map_eq_some_iff.mp hi
      rw [hq, Option.map_some]
      refine ⟨fun h => ?_, fun h => ?_⟩
      · cases h
        exact absurd ((hf.handle q).trans hhandle) hp
      · cases h
        exact absurd hhandle hp
    · rfl
  handles j name hname := by rw [handleOf?_change hf]; exact hname
  killed := ⟨[], by unfold change; split <;> rfl, by simp⟩
  attempts := by unfold change; split <;> rfl
  same := by unfold change; split <;> rfl
  ended j p' hp' := by
    rw [change_getElem?] at hp'
    split at hp'
    · obtain ⟨p, hp, rfl⟩ := Option.map_eq_some_iff.mp hp'
      exact ⟨p, hp, hf.handle p, hf.alive⟩
    · exact ⟨p', hp', rfl, id⟩

theorem calm_look (hi : c.handleOf? i = some handle) : Calm handle c (c.look i).1 :=
  calm_change ends_look hi

theorem calm_await (patience : Option Duration) (hi : c.handleOf? i = some handle) :
    Calm handle c (c.await i patience).1 := by
  have hwaited : Calm handle c (c.record (.waited i patience)) :=
    calm_same [.waited i patience] rfl rfl rfl rfl rfl rfl (by simp)
  exact hwaited.trans (calm_change ends_await hi)

theorem within_killed (hi : c.handleOf? i = some handle) :
    Within handle c (c.record (.killed i)) where
  settings := rfl
  around := rfl
  sessions _ _ := rfl
  processes _ _ _ := .rfl
  handles _ _ h := h
  killed := by
    refine ⟨[.killed i], rfl, fun j hj => ?_⟩
    cases List.mem_singleton.mp hj
    exact hi

theorem calm_kill (hi : c.handleOf? i = some handle) : Calm handle c (c.kill i) := by
  have hchange : Calm handle (c.record (.killed i)) (c.kill i) := calm_change ends_kill hi
  exact ⟨(within_killed hi).trans hchange.toWithin, hchange.attempts, hchange.same, hchange.ended⟩

end Moments

section Sessions

theorem session?_handle {s : Session} (h : c.session? handle = some s) : s.handle = handle := by
  have := List.find?_some h
  simpa using this

theorem session?_drop_self (c : Client) (handle : String) :
    (c.drop handle).session? handle = none := by
  simp [session?, drop]

theorem session?_drop_other {other : String} (h : other ≠ handle) :
    (c.drop handle).session? other = c.session? other := by
  rw [session?, drop, List.find?_filter, session?]
  congr 1
  funext s
  by_cases hs : s.handle = other
  · simp [hs, h]
  · simp [hs]

theorem within_drop (c : Client) (handle : String) : Within handle c (c.drop handle) where
  settings := rfl
  around := rfl
  sessions _ hother := session?_drop_other hother
  processes _ _ _ := .rfl
  handles _ _ h := h
  killed := ⟨[], rfl, by simp⟩

theorem session?_enter (c : Client) (s : Session) (other : String) :
    (c.enter s).session? other = if s.handle = other then some s else c.session? other := by
  unfold enter session?
  split
  · next hany =>
    -- A session that is replaced has the handle of the one that takes its place.
    have hsame : ((·.handle == other) ∘ fun t : Session => if t.handle == s.handle then s else t) =
        (·.handle == other) := by
      funext t
      by_cases ht : t.handle = s.handle <;> simp [ht]
    rw [List.find?_map, hsame]
    cases hfind : c.sessions.find? (·.handle == other) with
    | none =>
      obtain ⟨t, ht, hhandle⟩ := List.any_eq_true.mp hany
      have hother := List.find?_eq_none.mp hfind t ht
      simp_all
    | some t =>
      have hhandle : t.handle = other := by simpa using List.find?_some hfind
      by_cases hs : s.handle = other
      · simp [hs, hhandle]
      · simp [hs, hhandle, Ne.symm hs]
  · next hnone =>
    rw [List.find?_append]
    by_cases hs : s.handle = other
    · have hfind : c.sessions.find? (·.handle == other) = none := by simpa [hs] using hnone
      simp [hfind, hs]
    · simp [hs]

theorem within_enter {s : Session} (hs : s.handle = handle) : Within handle c (c.enter s) where
  settings := by unfold enter; split <;> rfl
  around := by unfold enter; split <;> rfl
  sessions other hother := by
    rw [session?_enter, hs, if_neg (Ne.symm hother)]
  processes _ _ _ := by unfold enter; split <;> rfl
  handles _ _ h := by unfold enter; split <;> exact h
  killed := ⟨[], by unfold enter; split <;> rfl, by simp⟩

theorem spawn_processes (c : Client) (handle : String) (port : Nat) :
    (c.spawn handle port).1.processes =
      c.processes ++ [⟨handle, c.around.conducts c.processes.length, 0, none⟩] := rfl

theorem within_spawn (c : Client) (handle : String) (port : Nat) :
    Within handle c (c.spawn handle port).1 where
  settings := rfl
  around := rfl
  sessions _ _ := rfl
  processes i p hp := by
    rw [spawn_processes, List.getElem?_append]
    split
    · rfl
    · next hlong =>
      rw [List.getElem?_eq_none (Nat.le_of_not_lt hlong), List.getElem?_singleton]
      constructor
      · intro h
        split at h
        · cases h
          exact absurd rfl hp
        · cases h
      · exact fun h => nomatch h
  handles i name hname := by
    obtain ⟨p, hp, hhandle⟩ := Option.map_eq_some_iff.mp hname
    have hlt := (List.getElem?_eq_some_iff.mp hp).1
    rw [handleOf?, spawn_processes, List.getElem?_append_left hlt]
    exact hname
  killed := ⟨[.launched ⟨c.settings.host, port⟩], rfl, by simp⟩

theorem within_findPort (c : Client) (handle : String) : Within handle c c.findPort.1 :=
  ⟨⟨rfl, rfl⟩, fun _ _ => rfl, fun _ _ _ => .rfl, fun _ _ h => h, [], rfl, by simp⟩

end Sessions

section Operations

def Placed (c : Client) (handle : String) : Prop :=
  ∀ s, c.session? handle = some s → c.handleOf? s.process = some handle

theorem calm_isAlive (h : c.Placed handle) : Calm handle c (c.isAlive handle).1 := by
  unfold isAlive
  split
  · exact .refl handle c
  · next s hs => exact calm_look (h s hs)

theorem calm_waitReady {s : Session} (h : c.handleOf? s.process = some handle) (more : Nat)
    (last : Option String) : Calm handle c (waitReady s more last c).1 := by
  induction more generalizing c last with
  | zero => exact .refl handle c
  | succ more ih =>
    have hlook := calm_look h
    unfold waitReady
    split
    · next c' status hlooked =>
      rw [hlooked] at hlook
      exact hlook
    · next c' hlooked =>
      rw [hlooked] at hlook
      have hsent := hlook.trans (calm_send c' handle (c'.request s "GET" "/health" none))
      split
      · next c'' status body hanswer =>
        rw [hanswer] at hsent
        split
        · exact hsent
        · have hslept := hsent.trans (calm_sleep c'' handle pause)
          exact hslept.trans (ih (hslept.handles _ _ h) last)
      · next c'' reason hanswer =>
        rw [hanswer] at hsent
        have hslept := hsent.trans (calm_sleep c'' handle pause)
        exact hslept.trans (ih (hslept.handles _ _ h) (some reason))

theorem calm_active (h : c.Placed handle) : Calm handle c (c.active handle).1 := by
  unfold active
  split
  · exact .refl handle c
  · next s hs =>
    have hlook := calm_look (h s hs)
    split
    · next c' status hlooked =>
      rw [hlooked] at hlook
      exact hlook
    · next c' hlooked =>
      rw [hlooked] at hlook
      exact hlook

theorem calm_ask (h : c.Placed handle) (method path : String) (body : Option Json)
    (fault : String → BackendFault) : Calm handle c (c.ask handle method path body fault).1 := by
  have hactive := calm_active h
  unfold ask
  split
  · next c' failure hfailed =>
    rw [hfailed] at hactive
    exact hactive
  · next c' s hs =>
    rw [hs] at hactive
    exact hactive.trans (calm_send c' handle _)

theorem calm_clean (h : c.Placed handle) : Calm handle c (c.clean handle).1 := by
  have hpost : Calm handle c (c.post handle "/clean" none).1 := calm_ask h ..
  unfold clean
  split
  · next c' failure hfailed =>
    rw [hfailed] at hpost
    exact hpost
  · next c' answer hanswer =>
    rw [hanswer] at hpost
    exact hpost.trans (calm_sleep c' handle _)

theorem calm_finish {s : Session} (h : c.handleOf? s.process = some handle) (patience : Duration) :
    Calm handle c (c.finish s patience) := by
  have hsent := calm_send c handle (c.request s "POST" "/terminate" none)
  have hwaited := hsent.trans (calm_await (some patience) (hsent.handles _ _ h))
  unfold finish
  dsimp only
  split
  · next c' hended =>
    rw [hended] at hwaited
    exact hwaited
  · next c' hliving =>
    rw [hliving] at hwaited
    have hkilled := hwaited.trans (calm_kill (hwaited.handles _ _ h))
    exact hkilled.trans (calm_await none (hkilled.handles _ _ h))

theorem within_abandon {s : Session} (hs : s.handle = handle)
    (h : c.handleOf? s.process = some handle) : Within handle c (c.abandon s) := by
  have hdropped := within_drop c s.handle
  rw [hs] at hdropped
  have hlook := calm_look (hdropped.handles _ _ h)
  unfold abandon
  rw [hs]
  split
  · next c' status hlooked =>
    rw [hlooked] at hlook
    exact hdropped.trans hlook.toWithin
  · next c' hlooked =>
    rw [hlooked] at hlook
    have hliving := hdropped.trans hlook.toWithin
    exact hliving.trans (calm_kill (hliving.handles _ _ h)).toWithin

theorem launch_of_vacant {failure : Failure} (h : c.around.ports c.attempts = .error failure)
    (handle : String) : c.launch handle = (c.findPort.1, .error failure) := by
  simp only [launch, findPort, h]

theorem launch_of_refused {port : Nat} {failure : Failure}
    (hport : c.around.ports c.attempts = .ok port)
    (hrefused : c.around.refusal (c.address port) c.settings.apiKey = some failure)
    (handle : String) :
    c.launch handle = ((c.findPort.1.spawn handle port).1, .error failure) := by
  have hrefused' : (c.findPort.1.spawn handle port).1.around.refusal
      ((c.findPort.1.spawn handle port).1.address port)
      (c.findPort.1.spawn handle port).1.settings.apiKey = some failure := hrefused
  have hfound : c.findPort = (c.findPort.1, .ok port) := by rw [← hport]; rfl
  unfold launch
  rw [hfound]
  simp only [hrefused']

theorem launch_of_accepted {port : Nat} (hport : c.around.ports c.attempts = .ok port)
    (haccepted : c.around.refusal (c.address port) c.settings.apiKey = none) (handle : String) :
    c.launch handle = ((c.findPort.1.spawn handle port).1.enter (c.findPort.1.spawn handle port).2,
      .ok (c.findPort.1.spawn handle port).2) := by
  have haccepted' : (c.findPort.1.spawn handle port).1.around.refusal
      ((c.findPort.1.spawn handle port).1.address port)
      (c.findPort.1.spawn handle port).1.settings.apiKey = none := haccepted
  have hfound : c.findPort = (c.findPort.1, .ok port) := by rw [← hport]; rfl
  unfold launch
  rw [hfound]
  simp only [haccepted']

/-- A launch finds no port, is refused by the library, or opens a session. -/
theorem launch_cases (c : Client) (handle : String) :
    (∃ failure, c.launch handle = (c.findPort.1, .error failure)) ∨
    (∃ port failure, c.around.ports c.attempts = .ok port ∧
      c.around.refusal (c.address port) c.settings.apiKey = some failure ∧
      c.launch handle = ((c.findPort.1.spawn handle port).1, .error failure)) ∨
    ∃ port, c.launch handle = ((c.findPort.1.spawn handle port).1.enter
      (c.findPort.1.spawn handle port).2, .ok (c.findPort.1.spawn handle port).2) := by
  cases hport : c.around.ports c.attempts with
  | error failure => exact .inl ⟨failure, launch_of_vacant hport handle⟩
  | ok port =>
    right
    cases hrefusal : c.around.refusal (c.address port) c.settings.apiKey with
    | some failure =>
      exact .inl ⟨port, failure, rfl, hrefusal, launch_of_refused hport hrefusal handle⟩
    | none => exact .inr ⟨port, launch_of_accepted hport hrefusal handle⟩

theorem launch_ok {s : Session} (h : c.launch handle = (c', .ok s)) :
    ∃ port, s = (c.findPort.1.spawn handle port).2 ∧
      c' = (c.findPort.1.spawn handle port).1.enter (c.findPort.1.spawn handle port).2 := by
  rcases c.launch_cases handle with ⟨failure, hfailed⟩ | ⟨port, failure, -, -, hfailed⟩ |
    ⟨port, hopened⟩
  · cases h.symm.trans hfailed
  · cases h.symm.trans hfailed
  · cases h.symm.trans hopened
    exact ⟨port, rfl, rfl⟩

/-- The process of a session that was opened is the one launched for it. -/
theorem launch_placed {s : Session} (h : c.launch handle = (c', .ok s)) :
    c'.handleOf? s.process = some handle := by
  obtain ⟨port, rfl, rfl⟩ := launch_ok h
  refine (within_enter rfl).handles _ _ ?_
  rw [handleOf?, spawn_processes]
  simp [spawn]

theorem within_launch (c : Client) (handle : String) : Within handle c (c.launch handle).1 := by
  have hspawn (port : Nat) : Within handle c (c.findPort.1.spawn handle port).1 :=
    (within_findPort c handle).trans (within_spawn _ handle port)
  rcases c.launch_cases handle with ⟨failure, hfailed⟩ | ⟨port, failure, -, -, hfailed⟩ |
    ⟨port, hopened⟩
  · rw [hfailed]
    exact within_findPort c handle
  · rw [hfailed]
    exact hspawn port
  · rw [hopened]
    exact (hspawn port).trans (within_enter rfl)

theorem within_start (h : c.Placed handle) : Within handle c (c.start handle).1 := by
  have halive := (calm_isAlive h).toWithin
  unfold start
  split
  · next c' hliving =>
    rw [hliving] at halive
    exact halive
  · next c' hgone =>
    rw [hgone] at halive
    have hlaunched := halive.trans (within_launch c' handle)
    split
    · next c'' failure hfailed =>
      rw [hfailed] at hlaunched
      exact hlaunched
    · next c'' s hopened =>
      rw [hopened] at hlaunched
      have hasked := hlaunched.trans
        (calm_waitReady (launch_placed hopened) c''.questions none).toWithin
      have hplaced := (calm_waitReady (launch_placed hopened) c''.questions none).handles _ _
        (launch_placed hopened)
      obtain ⟨port, rfl, -⟩ := launch_ok hopened
      split
      · next last hready =>
        rw [hready] at hasked
        exact hasked
      · next last fault hfailed =>
        rw [hfailed] at hasked hplaced
        exact hasked.trans (within_abandon rfl hplaced)

theorem within_terminate (h : c.Placed handle) (patience : Duration) :
    Within handle c (c.terminate handle patience) := by
  unfold terminate
  split
  · exact .refl handle c
  · next s hs =>
    have hdropped := within_drop c handle
    have hlook := calm_look (hdropped.handles _ _ (h s hs))
    split
    · next c' status hlooked =>
      rw [hlooked] at hlook
      exact hdropped.trans hlook.toWithin
    · next c' hlooked =>
      rw [hlooked] at hlook
      have hliving := hdropped.trans hlook.toWithin
      exact hliving.trans (calm_finish (hliving.handles _ _ (h s hs)) patience).toWithin

end Operations

end SnippetRunner.Client
