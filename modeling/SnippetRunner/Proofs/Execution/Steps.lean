import Mathlib
import SnippetRunner.Execution.Drive
import SnippetRunner.Network.Script
import SnippetRunner.Proofs.Success

/-!
What a chain does while anything else goes on around it. Its steps are begun one after the
other; a step ends with a report and a look at the token, which together decide whether the
chain goes on. A token may be cancelled at any moment and stays so.
-/
namespace SnippetRunner

open Success in
/-- Starting a child touches the machine and nothing else of the host. -/
theorem SpawnPlan.start_host {p : SpawnPlan} {h h' : Host} {spawned : Spawned}
    (hstart : p.start h = .ok (h', spawned)) : ∃ machine, h' = { h with machine } := by
  unfold SpawnPlan.start at hstart
  by_cases hempty : p.argv.isEmpty = true
  · rw [if_pos hempty] at hstart
    cases hstart
  rw [if_neg hempty] at hstart
  by_cases hnul : p.hasNul = true
  · rw [if_pos hnul] at hstart
    cases hstart
  rw [if_neg hnul] at hstart
  obtain ⟨cwd, -, hstart⟩ := bind_eq_ok.mp hstart
  obtain ⟨image, -, hstart⟩ := bind_eq_ok.mp hstart
  cases hstart
  exact ⟨_, rfl⟩

namespace Host

variable (h : Host) (child : Nat) (job : String)

@[simp] theorem note_cancelled (source : String) (level : LogLevel) (text : String) :
    (h.note source level text).cancelled = h.cancelled := rfl

@[simp] theorem killGroup_cancelled : (h.killGroup child).cancelled = h.cancelled := rfl

@[simp] theorem track_cancelled : (h.track job child).cancelled = h.cancelled := by
  unfold track
  dsimp only
  split <;> rfl

theorem isCancelled_congr {h h' : Host} (hsame : h'.cancelled = h.cancelled) (token : Nat) :
    h'.isCancelled token = h.isCancelled token := by
  unfold isCancelled
  rw [hsame]

end Host

def ChainProgress.host : ChainProgress → Host
  | .moved h _ => h
  | .waiting h _ _ => h
  | .done h _ => h
  | .failed h _ => h

namespace Chain

structure Ended where
  shown : StepReport
  cancelled : Bool
  deriving DecidableEq, Repr

namespace Ended

structure Passed (e : Ended) : Prop where
  code : e.shown.code = 0
  inTime : e.shown.timedOut = false
  wanted : e.cancelled = false

structure Failed (e : Ended) : Prop where
  code : e.shown.code ≠ 0
  inTime : e.shown.timedOut = false
  wanted : e.cancelled = false

end Ended

inductive Moves (c : Chain) (h : Host) : Host → Chain → Prop
  | begins (argv : List String) (rest : List (List String)) (r : RunningStep) (h' : Host) :
    c.running = none → c.left = argv :: rest → h.isCancelled c.plan.token = false →
    h'.cancelled = h.cancelled →
    Moves c h h' { c with left := rest, begun := c.begun + 1, running := some r }
  | polls (r r' : RunningStep) (h' : Host) :
    c.running = some r → r.spawned.isLive h = true → h'.cancelled = h.cancelled →
    Moves c h h' { c with running := some r' }
  | ends (r : RunningStep) (h' : Host) :
    c.running = some r → r.spawned.isLive h = false → h'.cancelled = h.cancelled →
    (report (h.killGroup r.spawned.child) r).verdict? c.left.isEmpty
      (h.isCancelled c.plan.token) = none →
    Moves c h h' { c with
      transcript := c.transcript.add (report (h.killGroup r.spawned.child) r)
        c.plan.engine.timeLimit
      running := none }

inductive Finishes (c : Chain) (h : Host) : Outcome → Prop
  | complete : c.running = none → c.left = [] → Finishes c h (c.outcome h .ok)
  | stopped (argv : List String) (rest : List (List String)) :
    c.running = none → c.left = argv :: rest → h.isCancelled c.plan.token = true →
    Finishes c h (outcome { c with
      begun := c.begun + 1
      transcript := { c.transcript with exitCode := -1 } } h .cancelled)
  | ends (r : RunningStep) (h' : Host) (status : RunStatus) :
    c.running = some r → r.spawned.isLive h = false →
    (report (h.killGroup r.spawned.child) r).verdict? c.left.isEmpty
      (h.isCancelled c.plan.token) = some status →
    Finishes c h (outcome { c with
      transcript := c.transcript.add (report (h.killGroup r.spawned.child) r)
        c.plan.engine.timeLimit
      running := none } h' status)

structure Waits (c : Chain) (h h' : Host) (c' : Chain) : Prop where
  host : h' = h
  chain : c' = c
  live : ∃ r, c.running = some r ∧ r.spawned.isLive h = true

def Explains (c : Chain) (h : Host) : ChainProgress → Prop
  | .moved h' c' => Moves c h h' c'
  | .waiting h' c' _ => Waits c h h' c'
  | .done h' o => Finishes c h o ∧ h'.cancelled = h.cancelled
  | .failed h' _ => h'.cancelled = h.cancelled

section Explained

variable {c c' : Chain} {h h' : Host} {o : Outcome} {r : RunningStep}

theorem beginStep_explained {argv : List String} {rest : List (List String)}
    (hrunning : c.running = none) (hleft : c.left = argv :: rest)
    (hwanted : h.isCancelled c.plan.token = false) : Explains c h (c.beginStep h argv rest) := by
  unfold beginStep
  dsimp only
  split
  · exact Host.note_cancelled ..
  · next hstart =>
    obtain ⟨machine, rfl⟩ := SpawnPlan.start_host hstart
    exact .begins argv rest _ _ hrunning hleft hwanted (Host.track_cancelled ..)

theorem poll_explained (hrunning : c.running = some r) (hlive : r.spawned.isLive h = true) :
    Explains c h (c.poll h r) := by
  unfold poll
  dsimp only
  split
  · exact .polls r _ _ hrunning hlive rfl
  split
  · exact .polls r _ _ hrunning hlive rfl
  split
  · exact .polls r _ _ hrunning hlive rfl
  · exact .polls r _ _ hrunning hlive rfl

theorem endStep_explained (hrunning : c.running = some r)
    (hended : r.spawned.isLive h = false) : Explains c h (c.endStep h r) := by
  unfold endStep
  dsimp only
  split
  · next status hverdict => exact ⟨.ends r _ status hrunning hended hverdict, rfl⟩
  · next hverdict => exact .ends r _ hrunning hended rfl hverdict

theorem step_explained (c : Chain) (h : Host) : Explains c h (c.step h) := by
  unfold step
  split
  · next r hrunning =>
    cases hlive : r.spawned.isLive h with
    | false => exact endStep_explained hrunning hlive
    | true =>
      rw [if_neg (by simp)]
      split
      · exact ⟨rfl, rfl, r, hrunning, hlive⟩
      · exact poll_explained hrunning hlive
  · next hrunning =>
    split
    · next hleft => exact ⟨.complete hrunning hleft, rfl⟩
    · next argv rest hleft =>
      split
      · next hcancelled => exact ⟨.stopped argv rest hrunning hleft hcancelled, rfl⟩
      · next hwanted => exact beginStep_explained hrunning hleft (by simpa using hwanted)

theorem Moves.keeps (hmoves : Moves c h h' c') :
    c'.plan = c.plan ∧ h'.cancelled = h.cancelled := by
  cases hmoves with
  | begins argv rest r _ _ _ _ hsame => exact ⟨rfl, hsame⟩
  | polls r r' _ _ _ hsame => exact ⟨rfl, hsame⟩
  | ends r _ _ _ hsame _ => exact ⟨rfl, hsame⟩

theorem step_cancelled (c : Chain) (h : Host) : (c.step h).host.cancelled = h.cancelled := by
  have hexplained := step_explained c h
  cases hstep : c.step h <;> rw [hstep] at hexplained
  case moved => exact (Moves.keeps hexplained).2
  case waiting => exact congrArg Host.cancelled hexplained.host
  case done => exact hexplained.2
  case failed => exact hexplained

theorem step_moves (hstep : c.step h = .moved h' c') : Moves c h h' c' := by
  have hexplained := step_explained c h
  rwa [hstep] at hexplained

theorem step_finishes (hstep : c.step h = .done h' o) : Finishes c h o := by
  have hexplained := step_explained c h
  rw [hstep] at hexplained
  exact hexplained.1

theorem step_waits {until_ : Nat} (hstep : c.step h = .waiting h' c' until_) :
    Waits c h h' c' := by
  have hexplained := step_explained c h
  rwa [hstep] at hexplained

end Explained

structure Watched where
  host : Host
  chain : Chain
  /-- Command lines whose children were started. -/
  begun : List (List String) := []
  ended : List Ended := []
  /-- Some look at the token saw it cancelled. -/
  seen : Bool := false

namespace Watched

def start (p : ChainPlan) (h : Host) : Watched := { host := h, chain := p.start h }

variable (w : Watched)

def cancelled : Bool := w.host.isCancelled w.chain.plan.token

def next? : Option (List String) :=
  if w.chain.running.isNone then w.chain.left.head? else none

def ending? : Option Ended :=
  w.chain.running.bind fun r =>
    if r.spawned.isLive w.host then none
    else some ⟨report (w.host.killGroup r.spawned.child) r, w.cancelled⟩

/-- Whether the next move looks at the token: before a step, after it, and in between for as
long as its child was not killed. -/
def looks : Bool :=
  match w.chain.running with
  | none => !w.chain.left.isEmpty
  | some r => !r.spawned.isLive w.host ||
      (decide (r.pollAt ≤ w.host.machine.clock) && !r.killed)

/-- All steps that have ended once the next move is made. -/
def reports : List Ended := w.ended ++ w.ending?.toList

def sees : Bool := w.seen || (w.looks && w.cancelled)

def after (h : Host) (c : Chain) : Watched :=
  ⟨h, c, w.begun ++ w.next?.toList, w.reports, w.sees⟩

/-- The chain moves, or the host changes in any way that leaves cancelled tokens cancelled. -/
inductive Step : Watched → Prop
  | aside (h : Host) : w.host.cancelled ⊆ h.cancelled → Step { w with host := h }
  | move (h : Host) (c : Chain) : w.chain.step w.host = .moved h c → Step (w.after h c)

/-- Any number of moves of a chain with anything in between. -/
abbrev Run : Watched → Watched → Prop := Relation.ReflTransGen Step

structure Sound (p : ChainPlan) (w : Watched) : Prop where
  plan : w.chain.plan = p
  split : w.begun ++ w.chain.left = p.steps
  /-- At most one step was begun and has not ended. -/
  count : w.begun.length = w.ended.length + w.chain.running.toList.length
  passed : ∀ e ∈ w.ended, e.Passed
  stdout : w.chain.transcript.stdout = String.join (w.ended.map (·.shown.out))
  stderr : w.chain.transcript.stderr = String.join (w.ended.map (·.shown.err))
  truncated : w.chain.transcript.truncated = w.ended.any (·.shown.cut)
  /-- What was seen is still so, and the step that was running then has not ended. -/
  seen : w.seen = true → w.cancelled = true ∧ w.chain.running.isSome = true

variable {w} {w' : Watched} {p : ChainPlan} {h : Host} {o : Outcome}

theorem sound_start : Sound p (start p h) where
  plan := rfl
  split := rfl
  count := rfl
  passed e he := by cases he
  stdout := rfl
  stderr := rfl
  truncated := rfl
  seen hseen := by cases hseen

theorem cancelled_mono {h h' : Host} (hsub : h.cancelled ⊆ h'.cancelled) {token : Nat}
    (hcancelled : h.isCancelled token = true) : h'.isCancelled token = true := by
  unfold Host.isCancelled at hcancelled ⊢
  rw [List.contains_iff_mem] at hcancelled ⊢
  exact hsub hcancelled

section Verdicts

variable {r : StepReport} {last cancelled : Bool}

theorem verdict_none : r.verdict? last cancelled = none ↔ Ended.Passed ⟨r, cancelled⟩ := by
  refine ⟨fun h => ?_, fun ⟨hcode, htime, hwanted⟩ => ?_⟩
  · unfold StepReport.verdict? at h
    constructor <;> grind
  · dsimp only at hcode htime hwanted
    simp [StepReport.verdict?, hcode, htime, hwanted]

theorem verdict_ok : r.verdict? last cancelled ≠ some .ok := by
  unfold StepReport.verdict?
  grind

theorem verdict_timedOut : r.verdict? last cancelled = some .timedOut ↔ r.timedOut = true := by
  unfold StepReport.verdict?
  grind

theorem verdict_cancelled :
    r.verdict? last cancelled = some .cancelled ↔ r.timedOut = false ∧ cancelled = true := by
  unfold StepReport.verdict?
  grind

theorem verdict_failed {status : RunStatus}
    (hstatus : status = .compileFailed ∨ status = .runtimeFailed) :
    r.verdict? last cancelled = some status ↔
      Ended.Failed ⟨r, cancelled⟩ ∧ last = decide (status = .runtimeFailed) := by
  refine ⟨fun h => ?_, fun ⟨⟨hcode, htime, hwanted⟩, hlast⟩ => ?_⟩
  · unfold StepReport.verdict? at h
    refine ⟨⟨?_, ?_, ?_⟩, ?_⟩ <;> grind
  · dsimp only at hcode htime hwanted
    rcases hstatus with rfl | rfl <;> simp [StepReport.verdict?, hcode, htime, hwanted, hlast]

end Verdicts

section Now

variable {r : RunningStep} {argv : List String} {rest : List (List String)}

theorem next?_idle (hrunning : w.chain.running = none) (hleft : w.chain.left = argv :: rest) :
    w.next? = some argv := by
  simp [next?, hrunning, hleft]

theorem next?_busy (hrunning : w.chain.running = some r) : w.next? = none := by
  simp [next?, hrunning]

theorem reports_idle (hrunning : w.chain.running = none) : w.reports = w.ended := by
  simp [reports, ending?, hrunning]

theorem reports_live (hrunning : w.chain.running = some r)
    (hlive : r.spawned.isLive w.host = true) : w.reports = w.ended := by
  simp [reports, ending?, hrunning, hlive]

theorem reports_ended (hrunning : w.chain.running = some r)
    (hended : r.spawned.isLive w.host = false) :
    w.reports = w.ended ++ [⟨report (w.host.killGroup r.spawned.child) r, w.cancelled⟩] := by
  simp [reports, ending?, hrunning, hended]

theorem sees_wanted (hwanted : w.cancelled = false) : w.sees = w.seen := by
  simp [sees, hwanted]

end Now

theorem Sound.move_begins {argv : List String} {rest : List (List String)} {r : RunningStep}
    (hs : Sound p w) (hrunning : w.chain.running = none) (hleft : w.chain.left = argv :: rest)
    (hwanted : w.cancelled = false) :
    Sound p (w.after h
      { w.chain with left := rest, begun := w.chain.begun + 1, running := some r }) := by
  unfold after
  rw [next?_idle hrunning hleft, reports_idle hrunning, sees_wanted hwanted]
  have hcount := hs.count
  rw [hrunning] at hcount
  refine { hs with split := ?_, count := ?_, seen := fun hseen => ?_ }
  · rw [← hs.split, hleft, List.append_assoc]
    rfl
  · simpa using hcount
  · rw [(hs.seen hseen).1] at hwanted
    cases hwanted

theorem Sound.move_polls {r r' : RunningStep} (hs : Sound p w)
    (hrunning : w.chain.running = some r) (hlive : r.spawned.isLive w.host = true)
    (hsame : h.cancelled = w.host.cancelled) :
    Sound p (w.after h { w.chain with running := some r' }) := by
  unfold after
  rw [next?_busy hrunning, reports_live hrunning hlive, Option.toList_none, List.append_nil]
  have hcount := hs.count
  rw [hrunning] at hcount
  refine { hs with count := hcount, seen := fun hseen => ⟨?_, rfl⟩ }
  have hcancelled : w.cancelled = true := by
    rcases Bool.or_eq_true_iff.mp hseen with hseen | hlooked
    · exact (hs.seen hseen).1
    · exact (Bool.and_eq_true_iff.mp hlooked).2
  exact (Host.isCancelled_congr hsame _).trans hcancelled

theorem Sound.move_ends {r : RunningStep} (hs : Sound p w) (hrunning : w.chain.running = some r)
    (hended : r.spawned.isLive w.host = false)
    (hverdict : (report (w.host.killGroup r.spawned.child) r).verdict? w.chain.left.isEmpty
      w.cancelled = none) :
    Sound p (w.after h { w.chain with
      transcript := w.chain.transcript.add (report (w.host.killGroup r.spawned.child) r)
        w.chain.plan.engine.timeLimit
      running := none }) := by
  unfold after
  have hpassed := verdict_none.mp hverdict
  rw [next?_busy hrunning, reports_ended hrunning hended, sees_wanted hpassed.wanted,
    Option.toList_none, List.append_nil]
  have hcount := hs.count
  rw [hrunning] at hcount
  refine ⟨hs.plan, hs.split, ?_, fun e he => ?_, ?_, ?_, ?_, fun hseen => ?_⟩
  · simpa using hcount
  · rcases List.mem_append.mp he with hold | hnew
    · exact hs.passed e hold
    · obtain rfl := List.mem_singleton.mp hnew
      exact hpassed
  · simp [Transcript.add, hs.stdout]
  · have htime := hpassed.inTime
    dsimp only at htime
    simp [Transcript.add, hs.stderr, htime]
  · simp [Transcript.add, hs.truncated]
  · have hwanted := hpassed.wanted
    rw [(hs.seen hseen).1] at hwanted
    cases hwanted

theorem Step.sound (hstep : Step w w') (hs : Sound p w) : Sound p w' := by
  cases hstep with
  | aside h hsub =>
    exact { hs with
      seen := fun hseen => ⟨cancelled_mono hsub (hs.seen hseen).1, (hs.seen hseen).2⟩ }
  | move h c hmove =>
    cases step_moves hmove with
    | begins argv rest r _ hrunning hleft hwanted _ =>
      exact hs.move_begins hrunning hleft hwanted
    | polls r r' _ hrunning hlive hsame => exact hs.move_polls hrunning hlive hsame
    | ends r _ hrunning hended _ hverdict => exact hs.move_ends hrunning hended hverdict

theorem Run.sound (hrun : Run w w') (hs : Sound p w) : Sound p w' := by
  induction hrun with
  | refl => exact hs
  | tail _ hstep ih => exact hstep.sound ih

section Later

theorem ending?_cancelled {e : Ended} (he : e ∈ w.ending?.toList) : e.cancelled = w.cancelled := by
  unfold ending? at he
  cases hrunning : w.chain.running with
  | none => simp [hrunning] at he
  | some r =>
    simp only [hrunning, Option.bind_some] at he
    split at he
    · simp at he
    · obtain rfl := List.mem_singleton.mp he
      rfl

/-- What time leaves as it is: the token stays cancelled, and steps that end after that are
followed by a look that sees it. -/
structure Later (w w' : Watched) : Prop where
  plan : w'.chain.plan = w.chain.plan
  cancelled : w.cancelled = true → w'.cancelled = true
  ended : ∃ more, w'.ended = w.ended ++ more ∧
    (w.cancelled = true → ∀ e ∈ more, e.cancelled = true)

theorem Later.refl (w : Watched) : Later w w :=
  ⟨rfl, id, [], by simp, fun _ e he => by cases he⟩

theorem Later.trans {mid : Watched} (h₁ : Later w mid) (h₂ : Later mid w') : Later w w' where
  plan := h₂.plan.trans h₁.plan
  cancelled hcancelled := h₂.cancelled (h₁.cancelled hcancelled)
  ended := by
    obtain ⟨more, hmore, hsaw⟩ := h₁.ended
    obtain ⟨more', hmore', hsaw'⟩ := h₂.ended
    refine ⟨more ++ more', by rw [hmore', hmore, List.append_assoc], fun hcancelled e he => ?_⟩
    rcases List.mem_append.mp he with he | he
    · exact hsaw hcancelled e he
    · exact hsaw' (h₁.cancelled hcancelled) e he

theorem Step.later (hstep : Step w w') : Later w w' := by
  cases hstep with
  | aside h hsub => exact ⟨rfl, cancelled_mono hsub, [], by simp, fun _ e he => by cases he⟩
  | move h c hmove =>
    obtain ⟨hplan, hsame⟩ := Moves.keeps (step_moves hmove)
    refine ⟨hplan, fun hcancelled => ?_, _, rfl, fun hcancelled e he => ?_⟩
    · show h.isCancelled c.plan.token = true
      rw [hplan, Host.isCancelled_congr hsame]
      exact hcancelled
    · rw [ending?_cancelled he, hcancelled]

theorem Run.later (hrun : Run w w') : Later w w' := by
  induction hrun with
  | refl => exact .refl w
  | tail _ hstep ih => exact ih.trans hstep.later

end Later

/-- The first of the reports with which the chain may not go on is a failure at some place. -/
def FailedAt (reports : List Ended) (place : Nat) : Prop :=
  ∃ before e after, reports = before ++ e :: after ∧ before.length = place ∧
    (∀ b ∈ before, b.Passed) ∧ e.Failed

theorem not_failedAt {reports : List Ended} {place : Nat} (hpassed : ∀ e ∈ reports, e.Passed) :
    ¬ FailedAt reports place := by
  rintro ⟨before, e, after, rfl, -, -, hfailed⟩
  exact hfailed.code (hpassed e (by simp)).code

theorem failedAt_append {ended : List Ended} {e : Ended} {place : Nat}
    (hpassed : ∀ e ∈ ended, e.Passed) :
    FailedAt (ended ++ [e]) place ↔ place = ended.length ∧ e.Failed := by
  refine ⟨?_, fun ⟨hplace, hfailed⟩ => ⟨ended, e, [], rfl, hplace.symm, hpassed, hfailed⟩⟩
  rintro ⟨before, e', after, hsplit, rfl, -, hfailed⟩
  cases hlast : after.reverse with
  | nil =>
    obtain rfl := List.reverse_eq_nil_iff.mp hlast
    obtain ⟨rfl, heq⟩ := List.append_inj' hsplit rfl
    cases heq
    exact ⟨rfl, hfailed⟩
  | cons last rest =>
    have hafter : after = rest.reverse ++ [last] := by
      rw [← List.reverse_reverse after, hlast, List.reverse_cons]
    rw [hafter, ← List.cons_append, ← List.append_assoc] at hsplit
    have hmem : e' ∈ ended := by
      rw [(List.append_inj' hsplit rfl).1]
      simp
    exact absurd (hpassed e' hmem).code hfailed.code

structure Accounts (p : ChainPlan) (w : Watched) (o : Outcome) : Prop where
  /-- The steps that were run are the first ones of the plan. -/
  begun : w.begun.length = w.reports.length ∧ w.begun <+: p.steps
  /-- All but the last of them let the chain go on. -/
  passed : ∀ e ∈ w.reports.dropLast, e.Passed
  stdout : o.stdout = String.join (w.reports.map (·.shown.out))
  stderr : o.stderr = String.join (w.reports.map (·.shown.err)) ++
    if o.status = .timedOut then Transcript.timeoutNotice p.engine.timeLimit else ""
  truncated : o.truncated = true ↔ ∃ e ∈ w.reports, e.shown.cut = true
  timedOut : o.status = .timedOut ↔ ∃ e ∈ w.reports, e.shown.timedOut = true
  ok : o.status = .ok ↔ w.begun = p.steps ∧
    (∀ e ∈ w.reports, e.shown.code = 0 ∧ e.shown.timedOut = false) ∧ w.sees = false
  compileFailed : o.status = .compileFailed ↔
    ∃ place, FailedAt w.reports place ∧ place + 1 < p.steps.length
  runtimeFailed : o.status = .runtimeFailed ↔
    ∃ place, FailedAt w.reports place ∧ place + 1 = p.steps.length

/-- The chain was complete, or was stopped before a step. -/
theorem Sound.accounts_idle (hs : Sound p w) (hrunning : w.chain.running = none)
    (hstdout : o.stdout = w.chain.transcript.stdout)
    (hstderr : o.stderr = w.chain.transcript.stderr)
    (htruncated : o.truncated = w.chain.transcript.truncated)
    (hstatus : (w.chain.left = [] ∧ o.status = .ok) ∨
      (w.chain.left ≠ [] ∧ w.cancelled = true ∧ o.status = .cancelled)) :
    Accounts p w o := by
  have hreports := reports_idle hrunning
  have hpassed : ∀ e ∈ w.reports, e.Passed := hreports ▸ hs.passed
  have hunseen : w.seen = false := by
    cases hseen : w.seen with
    | false => rfl
    | true => simpa [hrunning] using (hs.seen hseen).2
  have hstatus' : o.status = .ok ∨ o.status = .cancelled := by
    rcases hstatus with ⟨-, hok⟩ | ⟨-, -, hcancelled⟩
    · exact .inl hok
    · exact .inr hcancelled
  refine ⟨⟨?_, ⟨_, hs.split⟩⟩, fun e he => hpassed e ((List.dropLast_sublist _).subset he),
    ?_, ?_, ?_, ?_, ?_, ?_, ?_⟩
  · simpa [hrunning, hreports] using hs.count
  · rw [hreports, hstdout, hs.stdout]
  · rw [hreports, hstderr, hs.stderr, if_neg (by rcases hstatus' with h | h <;> simp [h])]
    simp
  · simp [hreports, htruncated, hs.truncated]
  · constructor
    · rcases hstatus' with h | h <;> simp [h]
    · rintro ⟨e, he, htime⟩
      rw [(hpassed e he).inTime] at htime
      cases htime
  · rcases hstatus with ⟨hleft, hok⟩ | ⟨hleft, hcancelled, hstopped⟩
    · have hbegun : w.begun = p.steps := by simpa [hleft] using hs.split
      have hsees : w.sees = false := by simp [sees, looks, hunseen, hrunning, hleft]
      simp only [hok, hbegun, hsees, true_and, and_true, true_iff]
      exact fun e he => ⟨(hpassed e he).code, (hpassed e he).inTime⟩
    · simp only [hstopped, reduceCtorEq, false_iff]
      rintro ⟨hbegun, -, -⟩
      exact hleft (by simpa [hbegun] using hs.split)
  · simp only [not_failedAt hpassed, false_and, exists_false, iff_false]
    rcases hstatus' with h | h <;> simp [h]
  · simp only [not_failedAt hpassed, false_and, exists_false, iff_false]
    rcases hstatus' with h | h <;> simp [h]

/-- A step ended the chain. -/
theorem Sound.accounts_ended (hs : Sound p w) {e : Ended} (hreports : w.reports = w.ended ++ [e])
    (hlooks : w.looks = true) (hcancelled : e.cancelled = w.cancelled)
    (hcount : w.begun.length = w.ended.length + 1)
    (hstdout : o.stdout = w.chain.transcript.stdout ++ e.shown.out)
    (hstderr : o.stderr = w.chain.transcript.stderr ++ e.shown.err ++
      if e.shown.timedOut then Transcript.timeoutNotice p.engine.timeLimit else "")
    (htruncated : o.truncated = (w.chain.transcript.truncated || e.shown.cut))
    (hverdict : e.shown.verdict? w.chain.left.isEmpty e.cancelled = some o.status) :
    Accounts p w o := by
  have hlength : w.ended.length + 1 + w.chain.left.length = p.steps.length := by
    rw [← hs.split, List.length_append, hcount]
  have hstatus (status : RunStatus) : o.status = status ↔
      e.shown.verdict? w.chain.left.isEmpty e.cancelled = some status := by
    rw [hverdict, Option.some.injEq]
  have htime : o.status = .timedOut ↔ e.shown.timedOut = true :=
    (hstatus _).trans verdict_timedOut
  refine ⟨⟨by simp [hreports, hcount], ⟨_, hs.split⟩⟩, fun e' he => hs.passed e' ?_, ?_, ?_, ?_, ?_,
    ?_, ?_, ?_⟩
  · simpa [hreports] using he
  · simp [hreports, hstdout, hs.stdout]
  · simp only [htime]
    simp [hreports, hstderr, hs.stderr]
  · simp [hreports, htruncated, hs.truncated, or_and_right, exists_or]
  · rw [htime, hreports]
    refine ⟨fun h => ⟨e, by simp, h⟩, fun ⟨e', he, h⟩ => ?_⟩
    rcases List.mem_append.mp he with he | he
    · rw [(hs.passed e' he).inTime] at h
      cases h
    · rwa [List.mem_singleton.mp he] at h
  · refine ⟨fun hok => absurd ((hstatus _).mp hok) verdict_ok, fun ⟨_, hgood, hsees⟩ => ?_⟩
    obtain ⟨hcode, hintime⟩ := hgood e (by simp [hreports])
    have hwanted : e.cancelled = false := by
      rw [hcancelled]
      simpa [hlooks] using (Bool.or_eq_false_iff.mp hsees).2
    rw [verdict_none.mpr ⟨hcode, hintime, hwanted⟩] at hverdict
    cases hverdict
  · simp only [hreports, failedAt_append hs.passed, hstatus, verdict_failed (.inl rfl)]
    refine ⟨fun ⟨hfailed, hleft⟩ => ⟨_, ⟨rfl, hfailed⟩, ?_⟩, ?_⟩
    · have hpos := List.length_pos_iff.mpr (List.isEmpty_eq_false_iff.mp hleft)
      omega
    · rintro ⟨_, ⟨rfl, hfailed⟩, hplace⟩
      refine ⟨hfailed, List.isEmpty_eq_false_iff.mpr (List.length_pos_iff.mp ?_)⟩
      omega
  · simp only [hreports, failedAt_append hs.passed, hstatus, verdict_failed (.inr rfl)]
    refine ⟨fun ⟨hfailed, hleft⟩ => ⟨_, ⟨rfl, hfailed⟩, ?_⟩, ?_⟩
    · have hzero := List.length_eq_zero_iff.mpr (List.isEmpty_iff.mp hleft)
      omega
    · rintro ⟨_, ⟨rfl, hfailed⟩, hplace⟩
      refine ⟨hfailed, List.isEmpty_iff.mpr (List.length_eq_zero_iff.mp ?_)⟩
      omega

/-- The outcome of a chain tells what its steps showed. -/
theorem Sound.accounts (hs : Sound p w) (hdone : w.chain.step w.host = .done h o) :
    Accounts p w o := by
  cases step_finishes hdone with
  | complete hrunning hleft =>
    exact hs.accounts_idle hrunning rfl rfl rfl (.inl ⟨hleft, rfl⟩)
  | stopped argv rest hrunning hleft hcancelled =>
    exact hs.accounts_idle hrunning rfl rfl rfl (.inr ⟨by simp [hleft], hcancelled, rfl⟩)
  | ends r h' status hrunning hended hverdict =>
    have hcount := hs.count
    rw [hrunning] at hcount
    refine hs.accounts_ended (reports_ended hrunning hended) ?_ rfl hcount rfl ?_ rfl hverdict
    · simp [looks, hrunning, hended]
    · rw [← hs.plan]
      rfl

/-- A token that is cancelled before the last step that was run has ended is seen. -/
theorem Later.seen {mid : Watched} (hlater : Later mid w) (hs : Sound p w)
    (hdone : w.chain.step w.host = .done h o) (hsteps : p.steps ≠ [])
    (hcancelled : mid.cancelled = true)
    (hbefore : mid.ended.length < w.reports.length ∨ w.reports = []) :
    o.status = .cancelled ∨ o.status = .timedOut := by
  have hnow := hlater.cancelled hcancelled
  obtain ⟨more, hmore, hsaw⟩ := hlater.ended
  have hnone : more = [] := by
    cases more with
    | nil => rfl
    | cons e rest =>
      have hpassed := (hs.passed e (by simp [hmore])).wanted
      rw [hsaw hcancelled e (by simp)] at hpassed
      cases hpassed
  cases step_finishes hdone with
  | complete hrunning hleft =>
    rw [reports_idle hrunning, hmore, hnone, List.append_nil] at hbefore
    rcases hbefore with hbefore | hreports
    · exact absurd hbefore (Nat.lt_irrefl _)
    · have hbegun : w.begun = [] := by
        rw [← List.length_eq_zero_iff, hs.count, hmore, hnone, List.append_nil, hreports, hrunning]
        rfl
      exact absurd (hs.split.symm.trans (by rw [hbegun, hleft]; rfl)) hsteps
  | stopped argv rest _ _ _ => exact .inl rfl
  | ends r h' status hrunning hended hverdict =>
    rw [show w.host.isCancelled w.chain.plan.token = true from hnow] at hverdict
    cases htime : (report (w.host.killGroup r.spawned.child) r).timedOut with
    | true => exact .inr (Option.some.inj (hverdict.symm.trans (verdict_timedOut.mpr htime)))
    | false =>
      exact .inl (Option.some.inj (hverdict.symm.trans (verdict_cancelled.mpr ⟨htime, rfl⟩)))

/-- Whatever the steps of a chain do and whenever its token is cancelled, the outcome of the
chain is that of the steps that were run. A token that was cancelled before the last of them had
ended leaves no other status than being cancelled or out of time. -/
theorem outcome_accounts (hsteps : p.steps ≠ []) (hrun : Run (start p h) w) {h' : Host}
    (hdone : w.chain.step w.host = .done h' o) :
    Accounts p w o ∧ ∀ mid, Run (start p h) mid → Run mid w → mid.cancelled = true →
      mid.ended.length < w.reports.length ∨ w.reports = [] →
      o.status = .cancelled ∨ o.status = .timedOut := by
  have hs := hrun.sound sound_start
  exact ⟨hs.accounts hdone, fun mid _ hmid hcancelled hbefore =>
    hmid.later.seen hs hdone hsteps hcancelled hbefore⟩

section Driving

theorem cancel_sub (h : Host) (token : Nat) : h.cancelled ⊆ (h.cancel token).cancelled := by
  unfold Host.cancel
  split
  · exact fun _ hmem => hmem
  · exact fun _ hmem => List.mem_cons_of_mem _ hmem

theorem ring_sub (h : Host) (timers : Timers) : h.cancelled ⊆ (ring h timers).1.cancelled := by
  unfold ring
  generalize timers.filter (fun t => decide (t.1 ≤ h.machine.clock)) = due
  dsimp only
  induction due generalizing h with
  | nil => exact fun _ hmem => hmem
  | cons t rest ih => exact fun _ hmem => ih _ (cancel_sub h t.2 hmem)

/-- Driving a chain by timers is a run of it: the outcome is that of its last move, or the moves
were used up. -/
theorem runFor_run {fuel : Nat} {timers : Timers} {h' : Host} {o : Outcome}
    (hdriven : runFor fuel w.chain w.host timers = (h', .ok o)) :
    ∃ w', Run w w' ∧ (w'.chain.step w'.host = .done h' o ∨
      (h' = w'.host ∧ o = w'.chain.outcome w'.host .cancelled)) := by
  induction fuel generalizing w timers with
  | zero =>
    cases hdriven
    exact ⟨w, .refl, .inr ⟨rfl, rfl⟩⟩
  | succ fuel ih =>
    have hrung := Step.aside (w := w) _ (ring_sub w.host timers)
    unfold runFor at hdriven
    dsimp only at hdriven
    split at hdriven
    · next hstep =>
      cases hdriven
      exact ⟨_, .single hrung, .inl hstep⟩
    · cases hdriven
    · next hstep =>
      have hmove := Step.move (w := { w with host := (ring w.host timers).1 }) _ _ hstep
      obtain ⟨w', hrun, hw'⟩ := ih (w := ⟨_, _, _, _, _⟩) hdriven
      exact ⟨w', .head hrung (.head hmove hrun), hw'⟩
    · next rung chain until_ hstep =>
      obtain ⟨rfl, rfl, -⟩ := step_waits hstep
      let passed := (ring w.host timers).1.pass w.chain.awaited
        (nextTime until_ (ring w.host timers).2)
      have hpass : Step { w with host := (ring w.host timers).1 } { w with host := passed } :=
        .aside passed fun _ hmem => hmem
      obtain ⟨w', hrun, hw'⟩ := ih (w := { w with host := passed }) hdriven
      exact ⟨w', .head hrung (.head hpass hrun), hw'⟩

end Driving

section Witness

/-- A host with a program that succeeds and one that fails. -/
def toolHost : Host where
  machine := .start ⟨[(["true"], .file (Machine.imageOf "true") true),
    (["false"], .file (Machine.imageOf "false") true)]⟩
  cwd := []
  env := []
  wire := .down

def twoSteps : ChainPlan where
  steps := [["/true"], ["/false"]]
  cwd := .ofString "/"
  job := "job"
  token := 0
  engine := {}

theorem runFor_twoSteps : (runFor 8 (twoSteps.start toolHost) toolHost []).2 =
    .ok ⟨"", "", 1, 0, .runtimeFailed, 1, false⟩ := by cbv

/-- The second of two steps fails; and with the token cancelled at the start no step is run. -/
theorem outcome_accounts_twoSteps : twoSteps.steps ≠ [] ∧
    (∃ w h o, Run (start twoSteps toolHost) w ∧ w.chain.step w.host = .done h o ∧
      o.status = .runtimeFailed ∧ Accounts twoSteps w o) ∧
    ∃ w h o, Run (start twoSteps toolHost) w ∧ w.cancelled = true ∧ w.reports = [] ∧
      w.chain.step w.host = .done h o ∧ (o.status = .cancelled ∨ o.status = .timedOut) := by
  have hsteps : twoSteps.steps ≠ [] := by decide
  refine ⟨hsteps, ?_, ?_⟩
  · obtain ⟨w, hrun, hdone | ⟨-, hspent⟩⟩ :=
      runFor_run (w := start twoSteps toolHost) (Prod.ext rfl runFor_twoSteps)
    · exact ⟨w, _, _, hrun, hdone, rfl, (outcome_accounts hsteps hrun hdone).1⟩
    · have hstatus := congrArg Outcome.status hspent
      cases hstatus
  · have hrun : Run (start twoSteps toolHost)
        { start twoSteps toolHost with host := toolHost.cancel 0 } :=
      .single (.aside _ (cancel_sub toolHost 0))
    exact ⟨_, _, _, hrun, rfl, rfl, rfl,
      (outcome_accounts hsteps hrun rfl).2 _ hrun .refl rfl (.inr rfl)⟩

end Witness

end Watched

end Chain

end SnippetRunner
