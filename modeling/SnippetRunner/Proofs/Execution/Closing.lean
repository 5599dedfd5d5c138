import Mathlib.Logic.Relation
import SnippetRunner.Host
import SnippetRunner.Network.Script
import SnippetRunner.Proofs.Execution.Listing

/-!
Closing a tracker while others use it. A call is not one step: a child is listed in one critical
section and killed, if the tracker was closed then, after it; a sweep takes its snapshot in one
section and kills child by child after it; closing sets the flag in one section and sweeps
afterwards. In whatever way the sections of any number of calls interleave, once a call of
`close` has returned no child that was added is left over.
-/
namespace SnippetRunner

namespace Host

@[simp] theorem note_tracker (h : Host) (source : String) (level : LogLevel) (text : String) :
    (h.note source level text).tracker = h.tracker := rfl

@[simp] theorem killGroup_tracker (h : Host) (child : Nat) :
    (h.killGroup child).tracker = h.tracker := rfl

end Host

namespace Tracker

inductive Call
  /-- A child was listed; the flag is what the section saw. -/
  | adding (job : String) (child : Nat) (refused : Bool)
  /-- The children of a snapshot that are still to be killed, for `close` or for another. -/
  | killing (targets : List Nat) (closing : Bool)
  /-- The flag was set and no snapshot taken. -/
  | closing
  deriving DecidableEq

structure Addition where
  job : String
  child : Nat
  refused : Bool
  deriving DecidableEq

inductive Kill
  | own (job : String) (child : Nat)
  | swept (child : Nat)
  deriving DecidableEq

def Kill.child : Kill → Nat
  | own _ child => child
  | swept child => child

structure Traffic where
  host : Host
  calls : List Call := []
  added : List Addition := []
  /-- Listings that were taken off. -/
  removed : List (String × Nat) := []
  kills : List Kill := []
  /-- Some call of `close` has returned. -/
  shut : Bool := false

namespace Traffic

/-- One critical section, one group kill or one return of some call; `aside` is for all that
goes on without the tracker. -/
inductive Step (s : Traffic) : Traffic → Prop
  | list (job : String) (child : Nat) : Step s { s with
      host := { s.host with tracker := s.host.tracker.add job child }
      calls := .adding job child s.host.tracker.closed :: s.calls }
  | accept (job : String) (child : Nat) : .adding job child false ∈ s.calls → Step s { s with
      calls := s.calls.erase (.adding job child false)
      added := ⟨job, child, false⟩ :: s.added }
  | refuse (job : String) (child : Nat) : .adding job child true ∈ s.calls → Step s { s with
      host := s.host.killGroup child
      calls := s.calls.erase (.adding job child true)
      added := ⟨job, child, true⟩ :: s.added
      kills := .own job child :: s.kills }
  | remove (job : String) (child : Nat) : Step s { s with
      host := s.host.untrack job child
      removed := if child ∈ s.host.tracker.ofJob job then (job, child) :: s.removed
        else s.removed }
  | killJob (job : String) : Step s { s with
      calls := .killing (s.host.tracker.ofJob job) false :: s.calls }
  | killAll : Step s { s with calls := .killing s.host.tracker.children false :: s.calls }
  | close : Step s { s with
      host := { s.host with tracker := s.host.tracker.close }
      calls := .closing :: s.calls }
  | look : .closing ∈ s.calls → Step s { s with
      calls := .killing s.host.tracker.children true :: s.calls.erase .closing }
  | kill (child : Nat) (targets : List Nat) (closing : Bool) :
    .killing (child :: targets) closing ∈ s.calls → Step s { s with
      host := s.host.killGroup child
      calls := .killing targets closing :: s.calls.erase (.killing (child :: targets) closing)
      kills := .swept child :: s.kills }
  | sweep (closing : Bool) : .killing [] closing ∈ s.calls → Step s { s with
      calls := s.calls.erase (.killing [] closing)
      shut := s.shut || closing }
  | aside (host : Host) : host.tracker = s.host.tracker → Step s { s with host }

abbrev Run : Traffic → Traffic → Prop := Relation.ReflTransGen Step

variable {s s' : Traffic} {job : String} {child : Nat} {targets : List Nat}

def additions (s : Traffic) (refused : Bool) (job : String) (child : Nat) : Nat :=
  s.calls.count (.adding job child refused) + s.added.count ⟨job, child, refused⟩

def Killed (s : Traffic) (child : Nat) : Prop := ∃ k ∈ s.kills, k.child = child

/-- As many listings of the child under the job were taken off as additions of it returned. -/
def TakenOff (s : Traffic) (job : String) (child : Nat) : Prop :=
  s.added.countP (fun a => a.job = job ∧ a.child = child) ≤ s.removed.count (job, child)

def Cleared (s : Traffic) (targets : List Nat) : Prop :=
  ∀ job child, child ∈ targets ∨ s.Killed child ∨
    s.additions false job child ≤ s.removed.count (job, child)

structure Sound (s : Traffic) : Prop where
  distinct : s.host.tracker.Distinct
  /-- A listing is on the tracker until it is taken off. -/
  counted : ∀ job child, s.additions false job child + s.additions true job child =
    (s.host.tracker.ofJob job).count child + s.removed.count (job, child)
  refused : ∀ a ∈ s.added, a.refused = true → .own a.job a.child ∈ s.kills
  flagged : .closing ∈ s.calls → s.host.tracker.closed = true
  sweeping : ∀ targets, .killing targets true ∈ s.calls →
    s.host.tracker.closed = true ∧ s.Cleared targets
  done : s.shut = true → s.host.tracker.closed = true ∧ s.Cleared []

theorem sound_start {h : Host} (hempty : h.tracker = .empty) : Sound { host := h } where
  distinct := hempty ▸ Distinct.empty
  counted job child := by simp [additions, hempty, ofJob, Tracker.empty]
  refused a ha := by simp at ha
  flagged hcall := by simp at hcall
  sweeping targets hcall := by simp at hcall
  done hshut := by simp at hshut

/-- What no step undoes. -/
structure Keeps (s s' : Traffic) : Prop where
  closed : s.host.tracker.closed = true → s'.host.tracker.closed = true
  shut : s.shut = true → s'.shut = true
  killed : ∀ k ∈ s.kills, k ∈ s'.kills
  removed : ∀ entry, s.removed.count entry ≤ s'.removed.count entry
  added : ∃ more, s'.added = more ++ s.added
  /-- Under a closed tracker no addition sees the flag unset. -/
  admitted : s.host.tracker.closed = true →
    ∀ job child, s'.additions false job child = s.additions false job child

namespace Keeps

theorem refl (s : Traffic) : Keeps s s :=
  ⟨id, id, fun _ h => h, fun _ => Nat.le_refl _, ⟨[], rfl⟩, fun _ _ _ => rfl⟩

theorem trans {mid : Traffic} (h : Keeps s mid) (h' : Keeps mid s') : Keeps s s' where
  closed hclosed := h'.closed (h.closed hclosed)
  shut hshut := h'.shut (h.shut hshut)
  killed k hk := h'.killed k (h.killed k hk)
  removed entry := Nat.le_trans (h.removed entry) (h'.removed entry)
  added := by
    obtain ⟨more, hmore⟩ := h.added
    obtain ⟨more', hmore'⟩ := h'.added
    exact ⟨more' ++ more, by rw [hmore', hmore, List.append_assoc]⟩
  admitted hclosed job child :=
    (h'.admitted (h.closed hclosed) job child).trans (h.admitted hclosed job child)

theorem cleared (h : Keeps s s') (hclosed : s.host.tracker.closed = true)
    (hcleared : s.Cleared targets) : s'.Cleared targets := by
  intro job child
  rcases hcleared job child with htarget | ⟨k, hk, hchild⟩ | htaken
  · exact .inl htarget
  · exact .inr (.inl ⟨k, h.killed k hk, hchild⟩)
  · refine .inr (.inr ?_)
    rw [h.admitted hclosed]
    exact Nat.le_trans htaken (h.removed _)

end Keeps

section Calls

variable {calls : List Call} {refused : Bool}

/-- Calls that add nothing come and go without changing what is being added. -/
theorem count_erase_other {call : Call} (hother : call ≠ .adding job child refused) :
    (calls.erase call).count (.adding job child refused) =
      calls.count (.adding job child refused) :=
  List.count_erase_of_ne (Ne.symm hother)

end Calls

/-- A call of `add` that returns is an addition still. -/
theorem additions_return {calls : List Call} {added : List Addition} {refused seen : Bool}
    {other : String} {n : Nat} (hcall : .adding job child seen ∈ calls) :
    (calls.erase (.adding job child seen)).count (.adding other n refused) +
        List.count ⟨other, n, refused⟩ (⟨job, child, seen⟩ :: added) =
      calls.count (.adding other n refused) + added.count ⟨other, n, refused⟩ := by
  by_cases h : (job, child, seen) = (other, n, refused)
  · cases h
    have hpos := List.count_pos_iff.mpr hcall
    rw [List.count_erase_self, List.count_cons_self]
    omega
  · have hne : Call.adding job child seen ≠ .adding other n refused := by
      rintro heq
      cases heq
      exact h rfl
    have hne' : Addition.mk job child seen ≠ ⟨other, n, refused⟩ := by
      rintro heq
      cases heq
      exact h rfl
    rw [count_erase_other hne, List.count_cons_of_ne hne']

theorem additions_list (calls : List Call) (seen : Bool) (job : String) (child : Nat)
    (other : String) (n : Nat) :
    (Call.adding job child seen :: calls).count (.adding other n false) +
        (Call.adding job child seen :: calls).count (.adding other n true) =
      calls.count (.adding other n false) + calls.count (.adding other n true) +
        if (job, child) = (other, n) then 1 else 0 := by
  cases seen <;> simp [List.count_cons] <;> omega

theorem Step.keeps (h : Step s s') : Keeps s s' := by
  cases h with
  | list job child =>
    refine ⟨?_, id, fun _ h => h, fun _ => Nat.le_refl _, ⟨[], rfl⟩, ?_⟩
    · exact fun hclosed => (closed_add ..).trans hclosed
    · intro hclosed other n
      simp [additions, hclosed]
  | accept job child hcall =>
    exact ⟨id, id, fun _ h => h, fun _ => Nat.le_refl _, ⟨[_], rfl⟩,
      fun _ _ _ => additions_return hcall⟩
  | refuse job child hcall =>
    exact ⟨id, id, fun _ h => List.mem_cons_of_mem _ h, fun _ => Nat.le_refl _, ⟨[_], rfl⟩,
      fun _ _ _ => additions_return hcall⟩
  | remove job child =>
    refine ⟨id, id, fun _ h => h, fun entry => ?_, ⟨[], rfl⟩, fun _ _ _ => rfl⟩
    dsimp only
    split
    · exact List.count_le_count_cons
    · exact Nat.le_refl _
  | killJob job =>
    refine ⟨id, id, fun _ h => h, fun _ => Nat.le_refl _, ⟨[], rfl⟩, fun _ other n => ?_⟩
    simp [additions]
  | killAll =>
    refine ⟨id, id, fun _ h => h, fun _ => Nat.le_refl _, ⟨[], rfl⟩, fun _ other n => ?_⟩
    simp [additions]
  | close =>
    refine ⟨fun _ => rfl, id, fun _ h => h, fun _ => Nat.le_refl _, ⟨[], rfl⟩,
      fun _ other n => ?_⟩
    simp [additions]
  | look hcall =>
    refine ⟨id, id, fun _ h => h, fun _ => Nat.le_refl _, ⟨[], rfl⟩, fun _ other n => ?_⟩
    simp [additions]
  | kill child targets closing hcall =>
    refine ⟨id, id, fun _ h => List.mem_cons_of_mem _ h, fun _ => Nat.le_refl _, ⟨[], rfl⟩,
      fun _ other n => ?_⟩
    simp [additions]
  | sweep closing hcall =>
    refine ⟨id, fun hshut => ?_, fun _ h => h, fun _ => Nat.le_refl _, ⟨[], rfl⟩,
      fun _ other n => ?_⟩
    · simp [hshut]
    · simp [additions]
  | aside host hsame =>
    exact ⟨fun hclosed => hsame ▸ hclosed, id, fun _ h => h, fun _ => Nat.le_refl _, ⟨[], rfl⟩,
      fun _ _ _ => rfl⟩

section Origins

theorem Step.closing_origin (h : Step s s') (hcall : .closing ∈ s'.calls) :
    .closing ∈ s.calls ∨ s'.host.tracker.closed = true := by
  cases h with
  | list job child => exact .inl (by simpa using hcall)
  | accept job child _ => exact .inl (List.mem_of_mem_erase hcall)
  | refuse job child _ => exact .inl (List.mem_of_mem_erase hcall)
  | remove job child => exact .inl hcall
  | killJob job => exact .inl (by simpa using hcall)
  | killAll => exact .inl (by simpa using hcall)
  | close => exact .inr rfl
  | look hclosing => exact .inl hclosing
  | kill child targets closing _ => exact .inl (by simpa using hcall)
  | sweep closing _ => exact .inl (List.mem_of_mem_erase hcall)
  | aside host _ => exact .inl hcall

/-- A snapshot that `close` works off is that of its section, or was longer before a kill. -/
theorem Step.sweep_origin (h : Step s s') (hcall : .killing targets true ∈ s'.calls) :
    .killing targets true ∈ s.calls ∨
      (.closing ∈ s.calls ∧ targets = s.host.tracker.children) ∨
      ∃ child, .killing (child :: targets) true ∈ s.calls ∧ .swept child ∈ s'.kills := by
  cases h with
  | list job child => exact .inl (by simpa using hcall)
  | accept job child _ => exact .inl (List.mem_of_mem_erase hcall)
  | refuse job child _ => exact .inl (List.mem_of_mem_erase hcall)
  | remove job child => exact .inl hcall
  | killJob job => exact .inl (by simpa using hcall)
  | killAll => exact .inl (by simpa using hcall)
  | close => exact .inl (by simpa using hcall)
  | look hclosing =>
    rcases List.mem_cons.mp hcall with hnew | hold
    · cases hnew
      exact .inr (.inl ⟨hclosing, rfl⟩)
    · exact .inl (List.mem_of_mem_erase hold)
  | kill child rest closing hkill =>
    rcases List.mem_cons.mp hcall with hnew | hold
    · cases hnew
      exact .inr (.inr ⟨child, hkill, List.mem_cons_self ..⟩)
    · exact .inl (List.mem_of_mem_erase hold)
  | sweep closing _ => exact .inl (List.mem_of_mem_erase hcall)
  | aside host _ => exact .inl hcall

theorem Step.shut_origin (h : Step s s') (hshut : s'.shut = true) :
    s.shut = true ∨ .killing [] true ∈ s.calls := by
  cases h with
  | sweep closing hcall =>
    rcases Bool.or_eq_true_iff.mp hshut with hold | rfl
    · exact .inl hold
    · exact .inr hcall
  | _ => exact .inl hshut

end Origins

section Preserved

theorem Step.distinct (h : Step s s') (hs : s.host.tracker.Distinct) :
    s'.host.tracker.Distinct := by
  cases h with
  | list job child => exact hs.add job child
  | remove job child => exact hs.remove job child
  | close => exact hs
  | aside host hsame => exact hsame ▸ hs
  | _ => exact hs

theorem Step.counted (h : Step s s') (hs : Sound s) (other : String) (n : Nat) :
    s'.additions false other n + s'.additions true other n =
      (s'.host.tracker.ofJob other).count n + s'.removed.count (other, n) := by
  have hcounted := hs.counted other n
  cases h with
  | list job child =>
    have hlisted := additions_list s.calls s.host.tracker.closed job child other n
    simp only [additions, count_ofJob_add] at hcounted ⊢
    omega
  | accept job child hcall =>
    simp only [additions] at hcounted ⊢
    rw [additions_return hcall, additions_return hcall]
    exact hcounted
  | refuse job child hcall =>
    simp only [additions] at hcounted ⊢
    rw [additions_return hcall, additions_return hcall]
    exact hcounted
  | remove job child =>
    have hremoved := hs.distinct.count_ofJob_remove job child other n
    simp only [additions, Host.untrack] at hcounted ⊢
    by_cases hmem : child ∈ s.host.tracker.ofJob job
    · simp only [hmem, true_and, if_true, List.count_cons, beq_iff_eq] at hremoved ⊢
      omega
    · simp only [hmem, false_and, if_false] at hremoved ⊢
      omega
  | aside host hsame => simpa only [additions, hsame] using hcounted
  | _ => simpa [additions] using hcounted

theorem Step.refused (h : Step s s') (hs : Sound s) :
    ∀ a ∈ s'.added, a.refused = true → .own a.job a.child ∈ s'.kills := by
  intro a ha hrefused
  cases h with
  | accept job child _ =>
    rcases List.mem_cons.mp ha with rfl | hold
    · cases hrefused
    · exact hs.refused a hold hrefused
  | refuse job child _ =>
    rcases List.mem_cons.mp ha with rfl | hold
    · exact List.mem_cons_self ..
    · exact List.mem_cons_of_mem _ (hs.refused a hold hrefused)
  | kill child targets closing _ => exact List.mem_cons_of_mem _ (hs.refused a ha hrefused)
  | _ => exact hs.refused a ha hrefused

/-- The snapshot of `close` has every child that is not taken off: the flag was set before. -/
theorem Sound.cleared_children (hs : Sound s) : s.Cleared s.host.tracker.children := by
  intro job child
  by_cases hmem : child ∈ s.host.tracker.ofJob job
  · exact .inl (mem_children_of_mem_ofJob hmem)
  · have hcounted := hs.counted job child
    rw [List.count_eq_zero.mpr hmem] at hcounted
    exact .inr (.inr (by omega))

theorem Step.sweeping (h : Step s s') (hs : Sound s) (hcall : .killing targets true ∈ s'.calls) :
    s'.host.tracker.closed = true ∧ s'.Cleared targets := by
  rcases h.sweep_origin hcall with hold | ⟨hclosing, rfl⟩ | ⟨child, hkill, hkilled⟩
  · have ⟨hclosed, hcleared⟩ := hs.sweeping targets hold
    exact ⟨h.keeps.closed hclosed, h.keeps.cleared hclosed hcleared⟩
  · have hclosed := hs.flagged hclosing
    exact ⟨h.keeps.closed hclosed, h.keeps.cleared hclosed hs.cleared_children⟩
  · have ⟨hclosed, hcleared⟩ := hs.sweeping _ hkill
    refine ⟨h.keeps.closed hclosed, fun job other => ?_⟩
    rcases h.keeps.cleared hclosed hcleared job other with htarget | hrest
    · rcases List.mem_cons.mp htarget with rfl | htarget
      · exact .inr (.inl ⟨_, hkilled, rfl⟩)
      · exact .inl htarget
    · exact .inr hrest

theorem Step.sound (h : Step s s') (hs : Sound s) : Sound s' where
  distinct := h.distinct hs.distinct
  counted := h.counted hs
  refused := h.refused hs
  flagged hcall := by
    rcases h.closing_origin hcall with hold | hclosed
    · exact h.keeps.closed (hs.flagged hold)
    · exact hclosed
  sweeping targets hcall := h.sweeping hs hcall
  done hshut := by
    rcases h.shut_origin hshut with hold | hswept
    · have ⟨hclosed, hcleared⟩ := hs.done hold
      exact ⟨h.keeps.closed hclosed, h.keeps.cleared hclosed hcleared⟩
    · have ⟨hclosed, hcleared⟩ := hs.sweeping [] hswept
      exact ⟨h.keeps.closed hclosed, h.keeps.cleared hclosed hcleared⟩

end Preserved

theorem Run.sound (h : Run s s') (hs : Sound s) : Sound s' := by
  induction h with
  | refl => exact hs
  | tail _ hstep ih => exact hstep.sound ih

theorem Run.keeps (h : Run s s') : Keeps s s' := by
  induction h with
  | refl => exact .refl s
  | tail _ hstep ih => exact ih.trans hstep.keeps

theorem countP_added (added : List Addition) :
    added.countP (fun a => a.job = job ∧ a.child = child) =
      added.count ⟨job, child, false⟩ + added.count ⟨job, child, true⟩ := by
  induction added with
  | nil => rfl
  | cons a rest ih =>
    obtain ⟨other, n, refused⟩ := a
    rw [List.countP_cons, List.count_cons, List.count_cons, ih]
    cases refused <;> simp <;> omega

/-- After the end of a sweep of `close` no child is left over. -/
theorem Sound.reclaimed (hs : Sound s) (hshut : s.shut = true) (job : String) (child : Nat) :
    s.Killed child ∨ s.TakenOff job child := by
  by_cases hrefused : ⟨job, child, true⟩ ∈ s.added
  · exact .inl ⟨_, hs.refused _ hrefused rfl, rfl⟩
  · rcases (hs.done hshut).2 job child with htarget | hkilled | htaken
    · simp at htarget
    · exact .inl hkilled
    · refine .inr ?_
      unfold TakenOff
      unfold additions at htaken
      rw [countP_added, List.count_eq_zero.mpr hrefused]
      omega

/-- Once a call of `close` has returned, every child whose addition has returned, whenever it
was, has been killed or taken off. The tracker stays closed, and an addition that returns later
has killed its child itself unless its section had come before the flag. -/
theorem closed_reclaims {h : Host} (hempty : h.tracker = .empty) (hrun : Run { host := h } s)
    (hshut : s.shut = true) (hlater : Run s s') :
    s'.host.tracker.closed = true ∧
    (∀ a ∈ s'.added, s'.Killed a.child ∨ s'.TakenOff a.job a.child) ∧
    ∃ more, s'.added = more ++ s.added ∧
      (∀ a ∈ more, a.refused = true → .own a.job a.child ∈ s'.kills) ∧
      ∀ job child, more.count ⟨job, child, false⟩ ≤ s.calls.count (.adding job child false) := by
  have hs := hrun.sound (sound_start hempty)
  have hs' := hlater.sound hs
  have hkeeps := hlater.keeps
  have hclosed := (hs.done hshut).1
  obtain ⟨more, hmore⟩ := hkeeps.added
  refine ⟨hkeeps.closed hclosed, fun a _ => hs'.reclaimed (hkeeps.shut hshut) a.job a.child,
    more, hmore, fun a ha => hs'.refused a (by simp [hmore, ha]), fun job child => ?_⟩
  have hadmitted := hkeeps.admitted hclosed job child
  unfold additions at hadmitted
  rw [hmore, List.count_append] at hadmitted
  omega

def idleHost : Host where
  machine := .start ⟨[]⟩
  cwd := []
  env := []
  wire := .down

/-- The first child was added before `close` and taken off between its two sections, the second
was listed before it and is not admitted yet, and the third was listed between the sections. -/
def racedTraffic : Traffic where
  host := { idleHost with tracker := ⟨[("b", [2]), ("c", [3])], true⟩ }
  calls := [.adding "c" 3 true, .adding "b" 2 false]
  added := [⟨"a", 1, false⟩]
  removed := [("a", 1)]
  kills := [.swept 3, .swept 2]
  shut := true

theorem racedTraffic_run : Run { host := idleHost } racedTraffic := by
  have h := Relation.ReflTransGen.refl (r := Step) (a := { host := idleHost })
  have h := h.tail (.list "a" 1)
  have h := h.tail (.accept "a" 1 (by decide))
  have h := h.tail (.list "b" 2)
  have h := h.tail .close
  have h := h.tail (.remove "a" 1)
  have h := h.tail (.list "c" 3)
  have h := h.tail (.look (by decide))
  have h := h.tail (.kill 2 [3] true (by decide))
  have h := h.tail (.kill 3 [] true (by decide))
  exact h.tail (.sweep true (by decide))

theorem closed_reclaims_fourChildren : idleHost.tracker = .empty ∧
    Run { host := idleHost } racedTraffic ∧ racedTraffic.shut = true ∧
    ∃ s, Run racedTraffic s ∧ s.host.tracker.closed = true ∧
      s.added = [⟨"d", 4, true⟩, ⟨"c", 3, true⟩, ⟨"b", 2, false⟩, ⟨"a", 1, false⟩] ∧
      s.kills = [.own "d" 4, .own "c" 3, .swept 3, .swept 2] ∧
      ∀ a ∈ s.added, s.Killed a.child ∨ s.TakenOff a.job a.child := by
  have h := Relation.ReflTransGen.refl (r := Step) (a := racedTraffic)
  have h := h.tail (.accept "b" 2 (by decide))
  have h := h.tail (.refuse "c" 3 (by decide))
  have h := h.tail (.list "d" 4)
  have h := h.tail (.refuse "d" 4 (by decide))
  have hreclaims := closed_reclaims rfl racedTraffic_run rfl h
  exact ⟨rfl, racedTraffic_run, rfl, _, h, hreclaims.1, rfl, rfl, hreclaims.2.1⟩

section Calls

/-- A call of `add` by itself. -/
theorem track_run (s : Traffic) (job : String) (child : Nat) : Run s { s with
    host := s.host.track job child
    added := ⟨job, child, s.host.tracker.closed⟩ :: s.added
    kills := if s.host.tracker.closed then .own job child :: s.kills else s.kills } := by
  have hlist := Step.list (s := s) job child
  unfold Host.track
  dsimp only
  rw [closed_add]
  cases hclosed : s.host.tracker.closed with
  | false =>
    rw [hclosed] at hlist
    have haccept := Step.accept job child (List.mem_cons_self ..) (s := { s with
      host := { s.host with tracker := s.host.tracker.add job child }
      calls := .adding job child false :: s.calls })
    rw [List.erase_cons_head] at haccept
    exact .tail (.single hlist) haccept
  | true =>
    rw [hclosed] at hlist
    let listed := { s.host with tracker := s.host.tracker.add job child }
    let told := listed.note "snipexec.executor.process" .warning
      s!"Process group {child} of job {job} started after shutdown; killing"
    have htold := Step.aside told rfl (s := { s with
      host := listed, calls := .adding job child true :: s.calls })
    have hrefuse := Step.refuse job child (List.mem_cons_self ..) (s := { s with
      host := told, calls := .adding job child true :: s.calls })
    rw [List.erase_cons_head] at hrefuse
    exact .tail (.tail (.single hlist) htold) hrefuse

/-- A call of `remove` is its section. -/
theorem untrack_run (s : Traffic) (job : String) (child : Nat) : Run s { s with
    host := s.host.untrack job child
    removed := if child ∈ s.host.tracker.ofJob job then (job, child) :: s.removed
      else s.removed } :=
  .single (.remove job child)

/-- A sweep that is not disturbed. -/
theorem sweep_run (say : Host → Nat → Host) (hsay : ∀ h child, (say h child).tracker = h.tracker)
    (targets : List Nat) (closing : Bool) (s : Traffic) :
    Run { s with calls := .killing targets closing :: s.calls } { s with
      host := targets.foldl (fun h child => (say h child).killGroup child) s.host
      kills := (targets.map .swept).reverse ++ s.kills
      shut := s.shut || closing } := by
  induction targets generalizing s with
  | nil =>
    have hsweep := Step.sweep closing (List.mem_cons_self ..) (s := { s with
      calls := .killing [] closing :: s.calls })
    rw [List.erase_cons_head] at hsweep
    exact .single hsweep
  | cons child rest ih =>
    have hsaid := Step.aside (say s.host child) (hsay s.host child) (s := { s with
      calls := .killing (child :: rest) closing :: s.calls })
    have hkill := Step.kill child rest closing (List.mem_cons_self ..) (s := { s with
      host := say s.host child
      calls := .killing (child :: rest) closing :: s.calls })
    rw [List.erase_cons_head] at hkill
    have hrest := ih { s with
      host := (say s.host child).killGroup child
      kills := .swept child :: s.kills }
    rw [List.map_cons, List.reverse_cons, List.append_assoc]
    exact .head hsaid (.head hkill hrest)

/-- A call of `killJob` by itself. -/
theorem killJob_run (s : Traffic) (job : String) : Run s { s with
    host := (s.host.killJob job).1
    kills := ((s.host.tracker.ofJob job).map .swept).reverse ++ s.kills } := by
  have hsweep := sweep_run (fun h child => h.note "snipexec.executor.process" .info
    s!"Killing process group {child} of job {job}") (fun _ _ => rfl)
    (s.host.tracker.ofJob job) false s
  rw [Bool.or_false] at hsweep
  exact .head (.killJob job) hsweep

/-- A call of `killAll` by itself. -/
theorem killAll_run (s : Traffic) : Run s { s with
    host := s.host.killAll.1
    kills := (s.host.tracker.children.map .swept).reverse ++ s.kills } := by
  have hsweep := sweep_run (fun h child => h.note "snipexec.executor.process" .info
    s!"Killing process group {child}") (fun _ _ => rfl) s.host.tracker.children false s
  rw [Bool.or_false] at hsweep
  exact .head .killAll hsweep

/-- A call of `close` by itself. -/
theorem closeTracker_run (s : Traffic) : Run s { s with
    host := s.host.closeTracker.1
    kills := (s.host.tracker.children.map .swept).reverse ++ s.kills
    shut := true } := by
  have hlook := Step.look (List.mem_cons_self ..) (s := { s with
    host := { s.host with tracker := s.host.tracker.close }
    calls := .closing :: s.calls })
  rw [List.erase_cons_head] at hlook
  have hsweep := sweep_run (fun h child => h.note "snipexec.executor.process" .info
    s!"Killing process group {child}") (fun _ _ => rfl) s.host.tracker.children true
    { s with host := { s.host with tracker := s.host.tracker.close } }
  rw [Bool.or_true] at hsweep
  exact .head .close (.head hlook hsweep)

end Calls

end Traffic

end Tracker

end SnippetRunner
