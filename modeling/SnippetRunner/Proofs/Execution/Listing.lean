import Mathlib.Data.List.Nodup
import SnippetRunner.Execution.Tracker

/-!
What a tracker lists. Adding a child puts it at the end of the list of its job, removing one
takes off the first listing of it, and neither touches the lists of other jobs, as long as no
job is listed twice. Taking off a child that was not listed before undoes listing it.
-/
namespace SnippetRunner.Tracker

def Distinct (t : Tracker) : Prop := (t.jobs.map (·.1)).Nodup

section Lookup

variable {α : Type} {entries : List (String × α)} {name : String}

theorem lookup_eq_none_of_notMem (h : name ∉ entries.map (·.1)) : entries.lookup name = none := by
  refine List.lookup_eq_none_iff.mpr fun e he => ?_
  rw [bne_iff_ne]
  rintro rfl
  exact h (List.mem_map_of_mem he)

theorem mem_of_lookup {value : α} (h : entries.lookup name = some value) :
    (name, value) ∈ entries := by
  induction entries with
  | nil => cases h
  | cons e rest ih =>
    obtain ⟨first, found⟩ := e
    rw [List.lookup_cons] at h
    split at h
    · next heq =>
      cases eq_of_beq heq
      cases h
      exact List.mem_cons_self ..
    · exact List.mem_cons_of_mem _ (ih h)

variable (entries) (job other : String) (change : α → α)

/-- Changing what is listed under one name leaves the other names alone. -/
theorem lookup_change :
    (entries.map fun e => if e.1 == job then (job, change e.2) else e).lookup other =
      if other = job then (entries.lookup job).map change else entries.lookup other := by
  induction entries with
  | nil => simp
  | cons e rest ih =>
    obtain ⟨name, value⟩ := e
    by_cases hname : name = job
    · subst hname
      by_cases hother : other = name
      · simp [hother]
      · have hbeq : (other == name) = false := by simpa using hother
        simp only [List.map_cons, beq_self_eq_true, if_true, List.lookup_cons, hbeq, hother,
          if_false] at ih ⊢
        exact ih
    · have hbeq : (name == job) = false := by simpa using hname
      have hbeq' : (job == name) = false := by simpa using Ne.symm hname
      simp only [List.map_cons, hbeq, Bool.false_eq_true, if_false, List.lookup_cons, hbeq']
      by_cases hother : other = name
      · subst hother
        simp [hname]
      · have hbeq'' : (other == name) = false := by simpa using hother
        simp only [hbeq'']
        exact ih

theorem names_change :
    (entries.map fun e => if e.1 == job then (job, change e.2) else e).map (·.1) =
      entries.map (·.1) := by
  rw [List.map_map]
  refine List.map_congr_left fun e _ => ?_
  by_cases h : e.1 = job <;> simp [h]

end Lookup

/-- A job without children may as well not be listed. -/
theorem lookup_dropEmpty {entries : List (String × List Nat)} (job other : String)
    (hdistinct : (entries.map (·.1)).Nodup) :
    ((entries.filter fun e => e.1 != job || !e.2.isEmpty).lookup other).getD [] =
      (entries.lookup other).getD [] := by
  induction entries with
  | nil => rfl
  | cons e rest ih =>
    obtain ⟨name, children⟩ := e
    rw [List.map_cons, List.nodup_cons] at hdistinct
    have ih := ih hdistinct.2
    rw [List.filter_cons, List.lookup_cons]
    by_cases hother : other = name
    · subst hother
      split
      · simp
      · next hdropped =>
        have hempty : children = [] := by
          by_contra hne
          exact hdropped (by simp [hne])
        rw [ih, lookup_eq_none_of_notMem hdistinct.1, hempty]
        simp
    · have hbeq : (other == name) = false := by simpa using hother
      split
      · rw [List.lookup_cons, hbeq]
        exact ih
      · rw [hbeq]
        exact ih

variable {t : Tracker} {job other : String} {child : Nat}

theorem any_eq_isSome_lookup : t.jobs.any (·.1 == job) = (t.jobs.lookup job).isSome := by
  cases hlisted : t.jobs.lookup job with
  | none =>
    refine List.any_eq_false.mpr fun e he hname => ?_
    have hne := List.lookup_eq_none_iff.mp hlisted e he
    rw [eq_of_beq hname, bne_self_eq_false] at hne
    cases hne
  | some listed => exact List.any_eq_true.mpr ⟨_, mem_of_lookup hlisted, by simp⟩

/-- Whatever a job lists is among all children. -/
theorem mem_children_of_mem_ofJob (h : child ∈ t.ofJob job) : child ∈ t.children := by
  unfold ofJob at h
  cases hlisted : t.jobs.lookup job with
  | none => simp [hlisted] at h
  | some listed =>
    rw [hlisted] at h
    exact List.mem_flatMap.mpr ⟨_, mem_of_lookup hlisted, h⟩

@[simp] theorem closed_add (t : Tracker) (job : String) (child : Nat) :
    (t.add job child).closed = t.closed := by
  unfold add
  split <;> rfl

theorem ofJob_add : (t.add job child).ofJob other =
    if other = job then t.ofJob job ++ [child] else t.ofJob other := by
  unfold add
  rw [any_eq_isSome_lookup]
  cases hlisted : t.jobs.lookup job with
  | none =>
    by_cases hother : other = job
    · simp [ofJob, hlisted, hother, List.lookup_append]
    · have hbeq : (other == job) = false := by simpa using hother
      simp [ofJob, hother, List.lookup_append, List.lookup_cons, hbeq]
  | some listed =>
    rw [Option.isSome_some, if_pos rfl]
    unfold ofJob
    rw [lookup_change _ _ _ (· ++ [child]), hlisted]
    split <;> rfl

@[simp] theorem ofJob_close (t : Tracker) (job : String) : t.close.ofJob job = t.ofJob job := rfl

theorem count_ofJob_add {n : Nat} : ((t.add job child).ofJob other).count n =
    (t.ofJob other).count n + if (job, child) = (other, n) then 1 else 0 := by
  rw [ofJob_add]
  by_cases hjob : other = job
  · subst hjob
    rw [if_pos rfl, List.count_append, List.count_singleton]
    simp
  · rw [if_neg hjob, if_neg fun h => hjob (congrArg Prod.fst h).symm]
    rfl

theorem Distinct.empty : Distinct Tracker.empty := List.nodup_nil

theorem Distinct.add (h : t.Distinct) (job : String) (child : Nat) :
    (t.add job child).Distinct := by
  unfold Tracker.add
  rw [any_eq_isSome_lookup]
  cases hlisted : t.jobs.lookup job with
  | none =>
    have hfresh : job ∉ t.jobs.map (·.1) := by
      intro hmem
      obtain ⟨e, he, rfl⟩ := List.mem_map.mp hmem
      simpa using List.lookup_eq_none_iff.mp hlisted e he
    show ((t.jobs ++ [(job, [child])]).map (·.1)).Nodup
    rw [List.map_append]
    exact h.append (List.nodup_singleton _) (by simpa using hfresh)
  | some listed =>
    rw [Option.isSome_some, if_pos rfl]
    unfold Distinct
    rw [names_change _ _ (· ++ [child])]
    exact h

theorem Distinct.remove (h : t.Distinct) (job : String) (child : Nat) :
    (t.remove job child).Distinct := by
  refine List.Nodup.sublist (List.filter_sublist.map _) ?_
  rw [names_change _ _ (List.erase · child)]
  exact h

/-- Removing a child takes off one listing of it. -/
theorem Distinct.ofJob_remove (h : t.Distinct) : (t.remove job child).ofJob other =
    if other = job then (t.ofJob job).erase child else t.ofJob other := by
  unfold ofJob Tracker.remove
  rw [lookup_dropEmpty, lookup_change _ _ _ (List.erase · child)]
  · split
    · cases t.jobs.lookup job <;> rfl
    · rfl
  · rw [names_change _ _ (List.erase · child)]
    exact h

theorem Distinct.count_ofJob_remove (h : t.Distinct) (job : String) (child : Nat)
    (other : String) (n : Nat) :
    ((t.remove job child).ofJob other).count n +
        (if child ∈ t.ofJob job ∧ (job, child) = (other, n) then 1 else 0) =
      (t.ofJob other).count n := by
  rw [h.ofJob_remove]
  by_cases hjob : other = job
  · subst hjob
    by_cases hn : child = n
    · subst hn
      rw [if_pos rfl, List.count_erase_self]
      by_cases hmem : child ∈ t.ofJob other
      · have hpos := List.count_pos_iff.mpr hmem
        rw [if_pos ⟨hmem, rfl⟩]
        omega
      · rw [if_neg fun h => hmem h.1, List.count_eq_zero.mpr hmem]
    · rw [if_pos rfl, List.count_erase_of_ne (Ne.symm hn),
        if_neg fun h => hn (congrArg Prod.snd h.2)]
      rfl
  · rw [if_neg hjob, if_neg fun h => hjob (congrArg Prod.fst h.2).symm]
    rfl

variable {t' : Tracker}

theorem ofJob_congr (h : t.jobs = t'.jobs) (job : String) : t.ofJob job = t'.ofJob job :=
  congrArg (fun jobs => (jobs.lookup job).getD []) h

theorem jobs_add_congr (h : t.jobs = t'.jobs) (job : String) (child : Nat) :
    (t.add job child).jobs = (t'.add job child).jobs := by
  unfold add
  rw [h]
  split <;> rfl

theorem jobs_remove_congr (h : t.jobs = t'.jobs) (job : String) (child : Nat) :
    (t.remove job child).jobs = (t'.remove job child).jobs := by
  unfold remove
  rw [h]

theorem children_congr (h : t.jobs = t'.jobs) : t.children = t'.children :=
  congrArg (·.flatMap (·.2)) h

theorem mem_ofJob_add (t : Tracker) (job : String) (child : Nat) :
    child ∈ (t.add job child).ofJob job := by
  simp [ofJob_add]

/-- Whoever is listed after an addition was listed before, or is the one that was added. -/
theorem mem_children_add {n : Nat} (h : n ∈ (t.add job child).children) :
    n ∈ t.children ∨ n = child := by
  obtain ⟨e, he, hn⟩ := List.mem_flatMap.mp h
  unfold add at he
  split at he
  · obtain ⟨old, hold, rfl⟩ := List.mem_map.mp he
    split at hn
    · rcases List.mem_append.mp hn with hn | hn
      · exact .inl (List.mem_flatMap.mpr ⟨old, hold, hn⟩)
      · exact .inr (List.mem_singleton.mp hn)
    · exact .inl (List.mem_flatMap.mpr ⟨old, hold, hn⟩)
  · rcases List.mem_append.mp he with hold | hnew
    · exact .inl (List.mem_flatMap.mpr ⟨e, hold, hn⟩)
    · obtain rfl := List.mem_singleton.mp hnew
      exact .inr (List.mem_singleton.mp hn)

theorem mem_children_remove {n : Nat} (h : n ∈ (t.remove job child).children) :
    n ∈ t.children := by
  obtain ⟨e, he, hn⟩ := List.mem_flatMap.mp h
  obtain ⟨old, hold, rfl⟩ := List.mem_map.mp (List.mem_filter.mp he).1
  refine List.mem_flatMap.mpr ⟨old, hold, ?_⟩
  split at hn
  · exact List.mem_of_mem_erase hn
  · exact hn

/-- Taking off what was not listed before it was added gives back what was there. -/
theorem jobs_remove_add (hinhabited : ∀ e ∈ t.jobs, e.2 ≠ []) (hfresh : child ∉ t.children) :
    ((t.add job child).remove job child).jobs = t.jobs := by
  have hentry (e : String × List Nat) (he : e ∈ t.jobs) : (e.2 ++ [child]).erase child = e.2 := by
    have hnot : child ∉ e.2 := fun hmem => hfresh (List.mem_flatMap.mpr ⟨e, he, hmem⟩)
    simp [List.erase_append_right _ hnot]
  have hkept : t.jobs.filter (fun e => e.1 != job || !e.2.isEmpty) = t.jobs := by
    refine List.filter_eq_self.mpr fun e he => ?_
    simp [hinhabited e he]
  unfold add remove
  split
  · dsimp only
    rw [List.map_map, List.map_congr_left, List.map_id, hkept]
    intro e he
    by_cases hname : e.1 = job
    · simp [hname, hentry e he, Prod.ext_iff]
    · simp [hname]
  · next hunlisted =>
    have hsame : t.jobs.map (fun e => if e.1 == job then (job, e.2.erase child) else e) =
        t.jobs := by
      refine (List.map_congr_left fun e he => ?_).trans (List.map_id _)
      have hother : (e.1 == job) = false := by
        simpa using fun heq => hunlisted (List.any_eq_true.mpr ⟨e, he, by simp [heq]⟩)
      rw [if_neg (by simp [hother])]
      rfl
    dsimp only
    rw [List.map_append, hsame, List.filter_append, hkept]
    simp

end SnippetRunner.Tracker
