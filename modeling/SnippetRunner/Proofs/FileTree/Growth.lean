import SnippetRunner.FileTree.Basic

/-!
How a file tree changes when nothing is removed from it. Directories, links and devices
stay what they are, a file may get other octets, and what is new is a directory or a file.
-/
namespace SnippetRunner.FileTree

def Plain : Entry → Prop
  | .directory => True
  | .file _ _ => True
  | .link _ => False
  | .device _ => False

/-- What may stand where an entry stood: another file for a file, else the entry itself. -/
inductive Stays : Entry → Entry → Prop
  | same (e : Entry) : Stays e e
  | rewritten {octets octets' : List UInt8} {x x' : Bool} :
      Stays (.file octets x) (.file octets' x')

structure Grown (t t' : FileTree) : Prop where
  kept : ∀ loc e, t.find? loc = some e → ∃ e', t'.find? loc = some e' ∧ Stays e e'
  plain : ∀ loc e, t'.find? loc = some e → Plain e ∨ t.find? loc = some e

def SameBut (loc : Location) (t t' : FileTree) : Prop :=
  ∀ other e, other ≠ loc → t.find? other = some e → t'.find? other = some e

theorem Stays.trans {a b c : Entry} (hab : Stays a b) (hbc : Stays b c) : Stays a c := by
  cases hab with
  | same => exact hbc
  | rewritten =>
    cases hbc with
    | same => exact .rewritten
    | rewritten => exact .rewritten

theorem Plain.not_link {e : Entry} (h : Plain e) : ∀ target, e ≠ .link target := by
  rintro target rfl
  exact h

theorem Stays.not_link {a b : Entry} (h : Stays a b) (ha : ∀ target, a ≠ .link target) :
    ∀ target, b ≠ .link target := by
  intro target hb
  subst hb
  cases h
  exact ha target rfl

theorem Stays.not_directory {a b : Entry} (h : Stays a b) (ha : a ≠ .directory) :
    b ≠ .directory := by
  rintro rfl
  cases h
  exact ha rfl

namespace Grown

variable {t t' t'' : FileTree}

theorem refl (t : FileTree) : Grown t t :=
  ⟨fun _ e h => ⟨e, h, .same e⟩, fun _ _ h => Or.inr h⟩

theorem trans (h : Grown t t') (h' : Grown t' t'') : Grown t t'' := by
  constructor
  · intro loc e he
    obtain ⟨e', he', hstays⟩ := h.kept loc e he
    obtain ⟨e'', he'', hstays'⟩ := h'.kept loc e' he'
    exact ⟨e'', he'', hstays.trans hstays'⟩
  · intro loc e he
    rcases h'.plain loc e he with hplain | he
    · exact Or.inl hplain
    · exact h.plain loc e he

theorem directory (h : Grown t t') {loc : Location} (hd : t.find? loc = some .directory) :
    t'.find? loc = some .directory := by
  obtain ⟨e', he', hstays⟩ := h.kept loc _ hd
  cases hstays
  exact he'

theorem link (h : Grown t t') {loc : Location} {target : String}
    (hl : t.find? loc = some (.link target)) : t'.find? loc = some (.link target) := by
  obtain ⟨e', he', hstays⟩ := h.kept loc _ hl
  cases hstays
  exact he'

end Grown

theorem lookup_append_single (entries : List (Location × Entry)) (loc other : Location)
    (e : Entry) (hfresh : ∀ p ∈ entries, p.1 ≠ loc) :
    (entries ++ [(loc, e)]).lookup other =
      if other = loc then some e else entries.lookup other := by
  rw [List.lookup_append]
  by_cases h : other = loc
  · subst h
    have hnone : entries.lookup other = none := by
      apply List.lookup_eq_none_iff.mpr
      intro p hp
      simpa using fun heq => hfresh p hp heq.symm
    simp [hnone]
  · have hne : (other == loc) = false := by simpa using h
    simp [h, List.lookup_cons, hne]

section Replace

variable (entries : List (Location × Entry)) (loc : Location) (e : Entry)

theorem lookup_replace_other {other : Location} (hne : other ≠ loc) :
    (entries.map fun p => if p.1 == loc then (loc, e) else p).lookup other =
      entries.lookup other := by
  induction entries with
  | nil => rfl
  | cons p rest ih =>
    obtain ⟨here, old⟩ := p
    by_cases hhere : here = loc
    · subst hhere
      have hbeq : (other == here) = false := by simpa using hne
      simp only [List.map_cons, beq_self_eq_true, if_true, List.lookup_cons, hbeq]
      exact ih
    · have hbeq : (here == loc) = false := by simpa using hhere
      simp only [List.map_cons, hbeq, Bool.false_eq_true, if_false, List.lookup_cons]
      split
      · rfl
      · exact ih

theorem lookup_replace_self (hmem : ∃ p ∈ entries, p.1 = loc) :
    (entries.map fun p => if p.1 == loc then (loc, e) else p).lookup loc = some e := by
  induction entries with
  | nil => simp at hmem
  | cons p rest ih =>
    obtain ⟨here, old⟩ := p
    by_cases hhere : here = loc
    · simp [hhere]
    · have hbeq : (here == loc) = false := by simpa using hhere
      have hbeq' : (loc == here) = false := by simpa using Ne.symm hhere
      obtain ⟨q, hq, hqloc⟩ := hmem
      have hrest : ∃ q ∈ rest, q.1 = loc := by
        rcases List.mem_cons.mp hq with rfl | hq
        · exact absurd hqloc hhere
        · exact ⟨q, hq, hqloc⟩
      simp only [List.map_cons, hbeq, Bool.false_eq_true, if_false, List.lookup_cons, hbeq']
      exact ih hrest

end Replace

/-- Inserting changes what is at one location, which is not the root. -/
theorem find?_insert (t : FileTree) {loc : Location} (hloc : loc ≠ []) (e : Entry)
    (other : Location) :
    (t.insert loc e).find? other = if other = loc then some e else t.find? other := by
  unfold find?
  cases other with
  | nil => simp [hloc.symm]
  | cons a as =>
    simp only [List.isEmpty_cons, Bool.false_eq_true, if_false]
    unfold insert
    by_cases hmem : ∃ p ∈ t.entries, p.1 = loc
    · have hany : (t.entries.any fun p => p.1 == loc) = true := by simpa using hmem
      rw [if_pos hany]
      by_cases hother : a :: as = loc
      · rw [if_pos hother, hother]
        exact lookup_replace_self t.entries loc e hmem
      · rw [if_neg hother]
        exact lookup_replace_other t.entries loc e hother
    · have hany : ¬ (t.entries.any fun p => p.1 == loc) = true := by simpa using hmem
      rw [if_neg hany]
      exact lookup_append_single t.entries loc _ e fun p hp heq => hmem ⟨p, hp, heq⟩

section Insert

variable {t : FileTree} {loc : Location} {e : Entry}

theorem grown_insert (hloc : loc ≠ []) (hplain : Plain e)
    (hold : ∀ old, t.find? loc = some old → Stays old e) : Grown t (t.insert loc e) := by
  constructor
  · intro other old hother
    rw [find?_insert t hloc]
    by_cases h : other = loc
    · subst h
      exact ⟨e, by simp, hold old hother⟩
    · exact ⟨old, by simpa [h] using hother, .same old⟩
  · intro other found hother
    rw [find?_insert t hloc] at hother
    by_cases h : other = loc
    · simp only [h, if_true, Option.some.injEq] at hother
      exact Or.inl (hother ▸ hplain)
    · exact Or.inr (by simpa [h] using hother)

/-- Only what it holds tells a file from another one that was written in its place. -/
theorem grown_of_rewritten {octets octets' : List UInt8} {executable executable' : Bool}
    (hloc : loc ≠ []) (hold : t.find? loc = some (.file octets executable)) :
    Grown (t.insert loc (.file octets' executable')) t := by
  constructor
  · intro other e hother
    rw [find?_insert t hloc] at hother
    by_cases h : other = loc
    · subst h
      obtain rfl : e = .file octets' executable' := by simpa using hother.symm
      exact ⟨_, hold, .rewritten⟩
    · exact ⟨e, by simpa [h] using hother, .same e⟩
  · intro other e hother
    rw [find?_insert t hloc]
    by_cases h : other = loc
    · subst h
      cases hold.symm.trans hother
      exact Or.inl trivial
    · exact Or.inr (by simpa [h] using hother)

theorem sameBut_insert (hloc : loc ≠ []) : SameBut loc t (t.insert loc e) := by
  intro other old hne hother
  rw [find?_insert t hloc]
  simpa [hne] using hother

end Insert

end SnippetRunner.FileTree
