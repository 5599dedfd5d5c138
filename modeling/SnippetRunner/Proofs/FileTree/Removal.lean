import SnippetRunner.Proofs.FileTree.Refusals

/-!
What is left when a part of a tree is removed. A walk that came to a place in the whole tree comes
to that place, or to where something is missing.
-/
namespace SnippetRunner.FileTree

def Part (t t' : FileTree) : Prop :=
  ∀ loc e, t.find? loc = some e → t'.find? loc = some e

theorem lookup_filter_key {α β : Type} [BEq α] [LawfulBEq α] (entries : List (α × β))
    (keep : α → Bool) (k : α) :
    (entries.filter fun e => keep e.1).lookup k = if keep k then entries.lookup k else none := by
  induction entries with
  | nil => simp
  | cons e rest ih =>
    obtain ⟨k', v⟩ := e
    by_cases hk : k = k'
    · subst hk
      cases hkeep : keep k <;> simp [hkeep, ih]
    · have hbeq : (k == k') = false := by simpa using hk
      cases hkeep : keep k' <;> simp [hkeep, ih, List.lookup_cons, hbeq]

/-- Removing takes what is at a location and below it, and the root stays. -/
theorem find?_removeAll (t : FileTree) (loc other : Location) :
    (t.removeAll loc).find? other =
      if loc <+: other ∧ other ≠ [] then none else t.find? other := by
  unfold find? removeAll
  cases other with
  | nil => simp
  | cons first rest =>
    simp only [List.isEmpty_cons, Bool.false_eq_true, if_false]
    rw [lookup_filter_key t.entries fun k => !loc.isPrefixOf k]
    by_cases hbelow : loc <+: first :: rest
    · have hbeq : loc.isPrefixOf (first :: rest) = true := List.isPrefixOf_iff_prefix.mpr hbelow
      rw [hbeq, if_neg (by simp), if_pos ⟨hbelow, List.cons_ne_nil first rest⟩]
    · simp [hbelow]

theorem Part.lost {t t' : FileTree} (h : Part t t') (loc : Location) :
    t.find? loc = none ∨ t.find? loc = t'.find? loc := by
  cases he : t.find? loc with
  | none => exact .inl rfl
  | some e => exact .inr (h loc e he).symm

section Walks

variable {t t' : FileTree} {follow : Bool} {budget : Nat} {here : Location} {name : String}
  {names : List String}

def Ended (r : Except FileError Place) : Prop :=
  r = .error .noEntry ∨ ∃ parent name, r = .ok (.vacant parent name)

theorem ended_of_missing (hnone : t.find? here = none) :
    Ended (walkFrom t follow budget here names) := by
  left
  cases names <;> rw [walkFrom, hnone]

theorem ended_of_free (hdir : t.find? here = some .directory) (hdots : name ≠ "..")
    (hsize : name.utf8ByteSize ≤ maxNameOctets) (hnone : t.find? (here ++ [name]) = none) :
    Ended (walkFrom t follow budget here (name :: names)) := by
  rw [walkFrom, hdir]
  simp only [beq_iff_eq, hdots, if_false, hnone]
  rw [if_neg (by omega)]
  cases names with
  | nil => exact .inr ⟨here, name, rfl⟩
  | cons next later => exact .inl rfl

/-- A step of a walk in the whole tree is one in its part, or that ends where nothing is. -/
theorem Part.step {e : Entry} (hpart : Part t t') (hdir : t'.find? here = some .directory)
    (hdots : name ≠ "..") (hsize : name.utf8ByteSize ≤ maxNameOctets)
    (he : t'.find? (here ++ [name]) = some e) :
    Ended (walkFrom t follow budget here (name :: names)) ∨
      t.find? here = some .directory ∧ t.find? (here ++ [name]) = some e := by
  rcases hpart.lost here with hnone | hhere
  · exact .inl (ended_of_missing hnone)
  · rcases hpart.lost (here ++ [name]) with hnone | hnext
    · exact .inl (ended_of_free (hhere.trans hdir) hdots hsize hnone)
    · exact .inr ⟨hhere.trans hdir, hnext.trans he⟩

/-- With less in the tree, a walk ends where it ended, or before that, where nothing is. -/
theorem walkFrom_part (hpart : Part t t') {place : Place}
    (h : walkFrom t' follow budget here names = .ok place) :
    walkFrom t follow budget here names = .ok place ∨
      Ended (walkFrom t follow budget here names) := by
  fun_induction walkFrom t' follow budget here names with
  | case1 budget here entry hentry =>
    rcases hpart.lost here with hnone | hsame
    · exact .inr (ended_of_missing hnone)
    · rw [walkFrom, hsame, hentry]
      exact .inl h
  | case3 budget here n rest hdir hdots ih =>
    obtain rfl := by simpa using hdots
    rcases hpart.lost here with hnone | hsame
    · exact .inr (ended_of_missing hnone)
    · rw [walkFrom_up (hsame.trans hdir)]
      exact ih h
  | case5 budget here n rest hdir hdots hsize hnone hlast =>
    rcases hpart.lost here with hnone' | hsame
    · exact .inr (ended_of_missing hnone')
    · refine .inr (ended_of_free (hsame.trans hdir) (by simpa using hdots) (by omega) ?_)
      exact (hpart.lost _).elim id (·.trans hnone)
  | case7 budget here n rest hdir hdots hsize target hlink hlast =>
    rcases hpart.step hdir (by simpa using hdots) (by omega) hlink with hended | ⟨hdir', hlink'⟩
    · exact .inr hended
    · rw [walkFrom, hdir']
      simp only [hdots, hsize, hlink', hlast]
      exact .inl h
  | case10 here n rest hdir hdots hsize target hlink hlast budget hempty ih =>
    rcases hpart.step hdir (by simpa using hdots) (by omega) hlink with hended | ⟨hdir', hlink'⟩
    · exact .inr hended
    · rw [walkFrom, hdir']
      simp only [hdots, hsize, hlink', hlast, hempty]
      exact ih h
  | case11 budget here n rest hdir hdots hsize e hlink hentry ih =>
    rcases hpart.step hdir (by simpa using hdots) (by omega) hentry with hended | ⟨hdir', hentry'⟩
    · exact .inr hended
    · rw [walkFrom_enter hdir' (by simpa using hdots) (by omega) hentry' hlink]
      exact ih h
  | _ => cases h

/-- What a path led to is what it leads to, or it leads nowhere. -/
theorem stat_part (hpart : Part t t') {cwd : Location} {p : Path} {loc : Location} {e : Entry}
    (h : stat t' cwd p = .ok (loc, e)) :
    stat t cwd p = .ok (loc, e) ∨ stat t cwd p = .error .noEntry := by
  have hwalk := stat_eq_ok.mp h
  have hform : walk t cwd true p = walkFrom t true linkBudget (startOf cwd p) p.parts :=
    walk_eq hwalk
  unfold stat
  rw [hform]
  rcases walkFrom_part hpart (walk_ok hwalk) with hsame | hnone | ⟨parent, name, hfree⟩
  · exact .inl (by rw [hsame])
  · exact .inr (by rw [hnone])
  · exact .inr (by rw [hfree])

end Walks

end SnippetRunner.FileTree
