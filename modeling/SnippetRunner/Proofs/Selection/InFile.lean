import SnippetRunner.Proofs.Selection.Meaning

/-!
Closing a choice of definitions within the current file. Whatever had been chosen before
stays; every wanted name, and every name that a newly chosen definition refers to, is then
provided by a chosen definition or missed. Nothing is chosen or missed that is not in every
set of names which holds the wanted ones and is closed under references within the file.
-/
namespace SnippetRunner.Selection.Surrounding

open Source

structure Picked (s : Surrounding) (chosen : List Definition) : Prop where
  nodup : chosen.Nodup
  denotes : ∀ d ∈ chosen, s.Denotes d.name d

def Provides (chosen : List Definition) (n : String) : Prop :=
  ∃ d ∈ chosen, d.name = n

def ClosedInFile (s : Surrounding) (set : String → Prop) : Prop :=
  ∀ n d m, set n → s.Denotes n d → m ∈ references s.style n d.text → set m

theorem Picked.nil (s : Surrounding) : s.Picked [] :=
  ⟨List.nodup_nil, by simp⟩

theorem Picked.append {s : Surrounding} {chosen : List Definition} {n : String}
    {d : Definition} (h : s.Picked chosen) (hd : s.Denotes n d) (hnew : d ∉ chosen) :
    s.Picked (chosen ++ [d]) := by
  constructor
  · rw [List.nodup_append]
    refine ⟨h.nodup, by simp, ?_⟩
    intro a ha b hb hab
    rw [List.mem_singleton.mp hb] at hab
    exact hnew (hab ▸ ha)
  · intro e he
    rcases List.mem_append.mp he with he | he
    · exact h.denotes e he
    · rw [List.mem_singleton.mp he, hd.name_eq]
      exact hd

/-- With each name there is only one definition that can have been picked. -/
theorem Picked.names_nodup {s : Surrounding} {chosen : List Definition}
    (h : s.Picked chosen) : (chosen.map (·.name)).Nodup := by
  apply h.nodup.map_on
  intro d hd e he hname
  have hd' := h.denotes d hd
  rw [hname] at hd'
  exact hd'.unique (h.denotes e he)

theorem Picked.defines {s : Surrounding} {chosen : List Definition} (h : s.Picked chosen)
    {n : String} (hn : Provides chosen n) : s.Defines n := by
  obtain ⟨d, hd, rfl⟩ := hn
  exact (h.denotes d hd).defines

theorem Picked.mem_iff {s : Surrounding} {chosen : List Definition} (h : s.Picked chosen)
    {n : String} {d : Definition} (hd : s.Denotes n d) : d ∈ chosen ↔ Provides chosen n := by
  constructor
  · intro hmem
    exact ⟨d, hmem, hd.name_eq⟩
  · rintro ⟨e, he, rfl⟩
    rw [hd.unique (h.denotes e he)]
    exact he

theorem Provides.mono {chosen more : List Definition} {n : String}
    (hsub : ∀ d ∈ chosen, d ∈ more) (h : Provides chosen n) : Provides more n := by
  obtain ⟨d, hd, hn⟩ := h
  exact ⟨d, hsub d hd, hn⟩

structure ChaseInvariant (s : Surrounding) (old : List Definition) (wanted : List String)
    (c : Chase (List Definition)) (pending : List String) : Prop where
  picked : s.Picked c.state
  kept : ∀ d ∈ old, d ∈ c.state
  provided : ∀ n ∈ c.done, s.Defines n → Provides c.state n
  recorded : ∀ n ∈ c.done, ¬ s.Defines n → n ∈ c.missing
  wanted_met : ∀ n ∈ wanted, n ∈ c.done ∨ n ∈ pending
  covered : ∀ d ∈ c.state, d ∉ old → ∀ m ∈ references s.style d.name d.text,
    m ∈ c.done ∨ m ∈ pending
  undefined : ∀ n ∈ c.missing, ¬ s.Defines n ∧ n ∈ c.done
  once : c.missing.Nodup
  sound : ∀ set : String → Prop, (∀ n ∈ wanted, set n) → s.ClosedInFile set →
    (∀ d ∈ c.state, d ∉ old → set d.name) ∧ (∀ n ∈ c.missing, set n) ∧ ∀ n ∈ pending, set n

namespace ChaseInvariant

variable {s : Surrounding} {old : List Definition} {wanted : List String}
  {c : Chase (List Definition)} {name : String} {rest : List String}

theorem start (hold : s.Picked old) :
    ChaseInvariant s old wanted (.start old) (sortNames wanted) where
  picked := hold
  kept := fun _ hd => hd
  provided := by simp [Chase.start]
  recorded := by simp [Chase.start]
  wanted_met := fun n hn => Or.inr ((NameOrder.mem_sortNames wanted n).mpr hn)
  covered := fun d hd hnot => absurd hd hnot
  undefined := by simp [Chase.start]
  once := List.nodup_nil
  sound := by
    intro set hwanted _
    refine ⟨fun d hd hnot => absurd hd hnot, by simp [Chase.start], ?_⟩
    intro n hn
    exact hwanted n ((NameOrder.mem_sortNames wanted n).mp hn)

private theorem settled_or_rest {done : List String} {n : String} (hname : name ∈ done)
    (h : n ∈ done ∨ n ∈ name :: rest) : n ∈ done ∨ n ∈ rest := by
  rcases h with h | h
  · exact Or.inl h
  · rcases List.mem_cons.mp h with rfl | h
    · exact Or.inl hname
    · exact Or.inr h

theorem dropped (hdone : name ∈ c.done) (h : ChaseInvariant s old wanted c (name :: rest)) :
    ChaseInvariant s old wanted c rest where
  picked := h.picked
  kept := h.kept
  provided := h.provided
  recorded := h.recorded
  wanted_met := fun n hn => settled_or_rest hdone (h.wanted_met n hn)
  covered := fun d hd hnot m hm => settled_or_rest hdone (h.covered d hd hnot m hm)
  undefined := h.undefined
  once := h.once
  sound := by
    intro set hwanted hclosed
    obtain ⟨hchosen, hmissing, hpending⟩ := h.sound set hwanted hclosed
    exact ⟨hchosen, hmissing, fun n hn => hpending n (List.mem_cons_of_mem _ hn)⟩

/-- Looking at the first pending name leaves every other one settled or pending. -/
private theorem advance {done : List String} {n : String} (h : n ∈ done ∨ n ∈ name :: rest) :
    n ∈ name :: done ∨ n ∈ rest := by
  rcases h with h | h
  · exact Or.inl (List.mem_cons_of_mem _ h)
  · rcases List.mem_cons.mp h with rfl | h
    · exact Or.inl (List.mem_cons_self ..)
    · exact Or.inr h

theorem missed (hdone : name ∉ c.done) (hname : ¬ s.Defines name)
    (h : ChaseInvariant s old wanted c (name :: rest)) :
    ChaseInvariant s old wanted (c.missed name) rest where
  picked := h.picked
  kept := h.kept
  provided := by
    intro n hn hdef
    rcases List.mem_cons.mp hn with rfl | hn
    · exact absurd hdef hname
    · exact h.provided n hn hdef
  recorded := by
    intro n hn hdef
    rcases List.mem_cons.mp hn with rfl | hn
    · exact List.mem_cons_self ..
    · exact List.mem_cons_of_mem _ (h.recorded n hn hdef)
  wanted_met := fun n hn => advance (h.wanted_met n hn)
  covered := fun d hd hnot m hm => advance (h.covered d hd hnot m hm)
  undefined := by
    intro n hn
    rcases List.mem_cons.mp hn with rfl | hn
    · exact ⟨hname, List.mem_cons_self ..⟩
    · exact ⟨(h.undefined n hn).1, List.mem_cons_of_mem _ (h.undefined n hn).2⟩
  once := List.nodup_cons.mpr ⟨fun hmem => hdone (h.undefined name hmem).2, h.once⟩
  sound := by
    intro set hwanted hclosed
    obtain ⟨hchosen, hmissing, hpending⟩ := h.sound set hwanted hclosed
    refine ⟨hchosen, ?_, fun n hn => hpending n (List.mem_cons_of_mem _ hn)⟩
    intro n hn
    rcases List.mem_cons.mp hn with rfl | hn
    · exact hpending n (List.mem_cons_self ..)
    · exact hmissing n hn

/-- Following a name whose definition is chosen only settles the name. -/
theorem followed_chosen {d : Definition} (hd : s.Denotes name d) (hmem : d ∈ c.state)
    (h : ChaseInvariant s old wanted c (name :: rest)) :
    ChaseInvariant s old wanted ⟨c.state, name :: c.done, c.missing, name :: c.visited⟩ rest where
  picked := h.picked
  kept := h.kept
  provided := by
    intro n hn hdef
    rcases List.mem_cons.mp hn with rfl | hn
    · exact (h.picked.mem_iff hd).mp hmem
    · exact h.provided n hn hdef
  recorded := by
    intro n hn hdef
    rcases List.mem_cons.mp hn with rfl | hn
    · exact absurd hd.defines hdef
    · exact h.recorded n hn hdef
  wanted_met := fun n hn => advance (h.wanted_met n hn)
  covered := fun e he hnot m hm => advance (h.covered e he hnot m hm)
  undefined := fun n hn => ⟨(h.undefined n hn).1, List.mem_cons_of_mem _ (h.undefined n hn).2⟩
  once := h.once
  sound := by
    intro set hwanted hclosed
    obtain ⟨hchosen, hmissing, hpending⟩ := h.sound set hwanted hclosed
    exact ⟨hchosen, hmissing, fun n hn => hpending n (List.mem_cons_of_mem _ hn)⟩

/-- Choosing the definition of a pending name makes the names it refers to pending. -/
theorem added {d : Definition} (hd : s.Denotes name d) (hnew : d ∉ c.state)
    {more : List String} (hmore : ∀ m, m ∈ more ↔
      m ∈ references s.style name d.text ∧ m ∉ name :: c.done)
    (h : ChaseInvariant s old wanted c (name :: rest)) :
    ChaseInvariant s old wanted { c with state := c.state ++ [d] } (name :: (rest ++ more)) where
  picked := h.picked.append hd hnew
  kept := fun e he => List.mem_append_left _ (h.kept e he)
  provided := fun n hn hdef => (h.provided n hn hdef).mono fun e he => List.mem_append_left _ he
  recorded := h.recorded
  wanted_met := fun n hn => (h.wanted_met n hn).imp_right (List.mem_append_left more)
  covered := by
    intro e he hnot m hm
    rcases List.mem_append.mp he with he | he
    · exact (h.covered e he hnot m hm).imp_right (List.mem_append_left more)
    · rw [List.mem_singleton.mp he, hd.name_eq] at hm
      by_cases hdone : m ∈ name :: c.done
      · rcases List.mem_cons.mp hdone with rfl | hdone
        · exact Or.inr (List.mem_cons_self ..)
        · exact Or.inl hdone
      · have hmem := (hmore m).mpr ⟨hm, hdone⟩
        exact Or.inr (List.mem_cons_of_mem _ (List.mem_append_right _ hmem))
  undefined := h.undefined
  once := h.once
  sound := by
    intro set hwanted hclosed
    obtain ⟨hchosen, hmissing, hpending⟩ := h.sound set hwanted hclosed
    have hname : set name := hpending name (List.mem_cons_self ..)
    refine ⟨?_, hmissing, ?_⟩
    · intro e he hnot
      rcases List.mem_append.mp he with he | he
      · exact hchosen e he hnot
      · rw [List.mem_singleton.mp he, hd.name_eq]
        exact hname
    · intro n hn
      rw [← List.cons_append] at hn
      rcases List.mem_append.mp hn with hn | hn
      · exact hpending n hn
      · exact hclosed name d n hname hd ((hmore n).mp hn).1

theorem followed (hname : s.Defines name) (h : ChaseInvariant s old wanted c (name :: rest)) :
    ChaseInvariant s old wanted (c.followed s.follow name) (rest ++ c.fresh s.follow name) := by
  obtain ⟨d, hd⟩ := hname.denotes
  have hfollow := follow_of_denotes c.state hd
  have hfresh := c.mem_fresh s.follow name
  by_cases hmem : d ∈ c.state
  · rw [if_pos hmem] at hfollow
    have hnone : c.fresh s.follow name = [] := by
      apply List.eq_nil_iff_forall_not_mem.mpr
      intro m hm
      simpa [hfollow] using ((hfresh m).mp hm).1
    rw [hnone, List.append_nil, Chase.followed, hfollow]
    exact h.followed_chosen hd hmem
  · rw [if_neg hmem] at hfollow
    rw [Chase.followed, hfollow]
    have hmore : ∀ m, m ∈ c.fresh s.follow name ↔
        m ∈ references s.style name d.text ∧ m ∉ name :: c.done := by
      intro m
      simpa [Chase.followed, hfollow] using hfresh m
    exact (h.added hd hmem hmore).followed_chosen hd (List.mem_append_right _ (by simp))

end ChaseInvariant

structure Closing (s : Surrounding) (old chosen : List Definition)
    (wanted missing : List String) : Prop where
  picked : s.Picked chosen
  kept : ∀ d ∈ old, d ∈ chosen
  served : ∀ n ∈ wanted, Provides chosen n ∨ n ∈ missing
  covered : ∀ d ∈ chosen, d ∉ old → ∀ m ∈ references s.style d.name d.text,
    Provides chosen m ∨ m ∈ missing
  undefined : ∀ n ∈ missing, ¬ s.Defines n
  once : missing.Nodup
  sound : ∀ set : String → Prop, (∀ n ∈ wanted, set n) → s.ClosedInFile set →
    (∀ d ∈ chosen, d ∉ old → set d.name) ∧ ∀ n ∈ missing, set n

theorem ChaseInvariant.closing {s : Surrounding} {old : List Definition}
    {wanted : List String} {c : Chase (List Definition)}
    (h : ChaseInvariant s old wanted c []) : s.Closing old c.state wanted c.missing where
  picked := h.picked
  kept := h.kept
  served := by
    intro n hn
    have hdone : n ∈ c.done := by simpa using h.wanted_met n hn
    by_cases hdef : s.Defines n
    · exact Or.inl (h.provided n hdone hdef)
    · exact Or.inr (h.recorded n hdone hdef)
  covered := by
    intro d hd hnot m hm
    have hdone : m ∈ c.done := by simpa using h.covered d hd hnot m hm
    by_cases hdef : s.Defines m
    · exact Or.inl (h.provided m hdone hdef)
    · exact Or.inr (h.recorded m hdone hdef)
  undefined := fun n hn => (h.undefined n hn).1
  once := h.once
  sound := by
    intro set hwanted hclosed
    obtain ⟨hchosen, hmissing, -⟩ := h.sound set hwanted hclosed
    exact ⟨hchosen, hmissing⟩

theorem close_closing (s : Surrounding) (old : List Definition) (wanted : List String)
    (hold : s.Picked old) :
    s.Closing old (s.close old wanted).1 wanted (s.close old wanted).2 := by
  apply ChaseInvariant.closing
  apply Chase.run_invariant (ChaseInvariant s old wanted)
  · intro c name rest hdone h
    exact h.dropped hdone
  · intro c name rest _ hknown h
    exact h.followed (mem_names.mp hknown)
  · intro c name rest hdone hunknown h
    exact h.missed hdone fun hdef => hunknown (mem_names.mpr hdef)
  · exact ChaseInvariant.start hold

end SnippetRunner.Selection.Surrounding
