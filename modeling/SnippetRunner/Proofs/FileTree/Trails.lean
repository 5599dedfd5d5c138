import SnippetRunner.Proofs.FileTree.Refusals
import SnippetRunner.Site

/-!
What a process sees of a file tree parts of which are closed to it. An entry that it sees is the
one that the path names, and it sees each entry to which no barred directory is on the way; the
only other question left open is one about a path that is too long.
-/
namespace SnippetRunner.FileTree

variable {t : FileTree} {barred : List Location} {cwd loc : Location} {p : Path} {e : Entry}

theorem statWithin_eq_ok : statWithin t barred cwd p = .ok (loc, e) ↔
    stat t cwd p = .ok (loc, e) ∧ (trail t cwd p).barredBy barred = false ∧
      ((trail t cwd p).toDirectory = true → e = .directory) := by
  unfold statWithin
  constructor
  · intro h
    split at h
    · cases h
    split at h
    · cases h
    split at h
    · cases h
    rename_i hfree
    cases hstat : stat t cwd p with
    | error e => simp [hstat] at h
    | ok found =>
      simp only [hstat] at h
      split at h
      · cases h
      · rename_i hdirectory
        cases h
        exact ⟨rfl, by simpa using hfree, by simpa using hdirectory⟩
  · rintro ⟨hstat, hfree, hdirectory⟩
    obtain ⟨hnul, hshort⟩ := form_of_walk (stat_eq_ok.mp hstat)
    rw [hnul, if_neg (by simp), if_neg (by omega), hfree, if_neg (by simp), hstat]
    cases hto : (trail t cwd p).toDirectory with
    | false => rfl
    | true => simp [hdirectory hto]

theorem statWithin_error_kind {e : FileError} (h : statWithin t barred cwd p = .error e) :
    e.meansAbsent = true ∨ e = .nameTooLong ∨ e = .access := by
  unfold statWithin at h
  split at h
  · cases h
    exact Or.inl rfl
  split at h
  · cases h
    exact Or.inr (Or.inl rfl)
  split at h
  · cases h
    exact Or.inr (Or.inr rfl)
  split at h
  · split at h
    · cases h
      exact Or.inl rfl
    · cases h
  · rename_i hstat
    cases h
    exact (stat_error_kind hstat).imp_right Or.inl

theorem statWithin_error {e : FileError} (hp : p.hasNul = false)
    (h : statWithin t barred cwd p = .error e) : e ≠ .nullByte := by
  unfold statWithin at h
  rw [hp, if_neg (by simp)] at h
  split at h
  · cases h
    exact FileError.noConfusion
  split at h
  · cases h
    exact FileError.noConfusion
  split at h
  · split at h
    · cases h
      exact FileError.noConfusion
    · cases h
  · rename_i hstat
    cases h
    exact stat_error hp hstat

theorem walkFrom_of_linkLoop (h : statWithin t barred cwd p = .error .linkLoop) :
    walkFrom t true linkBudget (startOf cwd p) p.parts = .error .linkLoop := by
  unfold statWithin at h
  split at h
  · cases h
  rename_i hnul
  split at h
  · cases h
  rename_i hlong
  split at h
  · cases h
  rw [stat, walk_short (by simpa using hnul) (by omega)] at h
  cases hwalk : walkFrom t true linkBudget (startOf cwd p) p.parts with
  | error e => simpa [hwalk] using h
  | ok place =>
    cases place with
    | existing loc e =>
      simp only [hwalk] at h
      split at h <;> cases h
    | vacant => simp [hwalk] at h

/-- Nothing is barred on the way to a directory that is seen without any bars. -/
theorem statWithin_directory (h : stat t cwd p = .ok (loc, .directory)) :
    statWithin t [] cwd p = .ok (loc, .directory) :=
  statWithin_eq_ok.mpr ⟨h, Trail.barredBy_nil _, fun _ => rfl⟩

theorem statWithin_nil_error {e : FileError} (h : stat t cwd p = .error e) :
    statWithin t [] cwd p = .error e := by
  unfold statWithin
  by_cases hnul : p.hasNul = true
  · rw [stat, walk, if_pos hnul] at h
    rw [if_pos hnul]
    exact h
  by_cases hlong : p.toString.utf8ByteSize ≥ maxPathOctets
  · rw [stat, walk, if_neg hnul, if_pos hlong] at h
    rw [if_neg hnul, if_pos hlong]
    exact h
  rw [if_neg hnul, if_neg hlong, Trail.barredBy_nil, h]
  rfl

/-- How a walk through a directory ends shows in the names after it. -/
theorem toDirectory_through (follow : Bool) (tail : List String) {budget : Nat} {here : Location}
    {names more : List String} (hmore : more ≠ [])
    (h : walkFrom t true budget here names = .ok (.existing loc .directory)) :
    ∃ left, (trailFrom t follow budget tail here (names ++ more)).toDirectory =
      (trailFrom t follow left tail loc more).toDirectory := by
  fun_induction walkFrom t true budget here names with
  | case1 budget here entry hentry =>
    cases h
    exact ⟨budget, rfl⟩
  | case3 budget here n rest hdir hdots ih =>
    obtain rfl := by simpa using hdots
    rw [List.cons_append, trailFrom_up hdir]
    exact ih h
  | case7 => simp_all
  | case10 here n rest hdir hdots hsize target hlink hlast budget hempty ih =>
    have hgoes : tailThrough tail target (rest ++ more) = tail := by simp [tailThrough, hmore]
    rw [List.cons_append, trailFrom_target (by simp [hmore]) hdir (by simpa using hdots)
      (by omega) hlink (by simpa using hempty), hgoes, ← List.append_assoc]
    exact ih h
  | case11 budget here n rest hdir hdots hsize e hlink hentry ih =>
    rw [List.cons_append, trailFrom_enter hdir (by simpa using hdots) (by omega) hentry hlink]
    exact ih h
  | _ => cases h

end SnippetRunner.FileTree

namespace SnippetRunner.Site

open FileTree

variable {s : Site} {p : Path}

/-- A question is left open just when the path is too long or barred. -/
theorem ask_eq_error {test : Entry → Bool} {e : FileError} :
    s.ask p test = .error e ↔ s.stat p = .error e ∧ e.meansAbsent = false := by
  unfold ask
  cases hstat : s.stat p with
  | ok found => simp
  | error e' =>
    dsimp only
    by_cases habsent : e'.meansAbsent = true
    · rw [if_pos habsent]
      constructor
      · rintro ⟨⟩
      · rintro ⟨⟨⟩, hnot⟩
        rw [habsent] at hnot
        cases hnot
    · rw [if_neg habsent]
      constructor
      · rintro ⟨⟩
        exact ⟨rfl, by simpa using habsent⟩
      · rintro ⟨⟨⟩, -⟩
        rfl

theorem ask_of_stat {test : Entry → Bool} {loc : Location} {e : Entry}
    (h : s.stat p = .ok (loc, e)) : s.ask p test = .ok (test e) := by
  rw [ask, h]

theorem stat_of_readText {text : String} (h : s.readText p = .ok text) :
    ∃ loc e, s.stat p = .ok (loc, e) := by
  unfold readText readOctets at h
  cases hstat : s.stat p with
  | ok found => exact ⟨found.1, found.2, rfl⟩
  | error e => simp [hstat, Except.map] at h

/-- Where a walk ends at a free name, nothing is there. -/
theorem pathExists_of_vacant {parent : Location} {name : String} (hbars : s.bars = {})
    (hnul : p.hasNul = false) (hshort : p.toString.utf8ByteSize < maxPathOctets)
    (hfree : s.tree.walkFrom true linkBudget (startOf s.cwd p) p.parts =
      .ok (.vacant parent name)) : s.pathExists p = .ok false := by
  have hstat : s.stat p = .error .noEntry := by
    rw [Site.stat, hbars]
    exact statWithin_nil_error (by rw [FileTree.stat, walk_short hnul hshort, hfree])
  rw [pathExists, ask, hstat]
  rfl

/-- An entry at the top that is no link is what its path names. -/
theorem stat_of_top {name : String} {e : Entry} (hbars : s.bars = {})
    (hnul : (⟨.root, [name]⟩ : Path).hasNul = false)
    (hshort : (⟨.root, [name]⟩ : Path).toString.utf8ByteSize < maxPathOctets)
    (hdots : name ≠ "..") (hname : name.utf8ByteSize ≤ maxNameOctets)
    (he : s.tree.find? [name] = some e) (hlink : ∀ target, e ≠ .link target) :
    s.stat ⟨.root, [name]⟩ = .ok ([name], e) := by
  have htop : s.tree.find? [] = some .directory := rfl
  have hend : walkFrom s.tree true linkBudget [name] [] = .ok (.existing [name] e) := by
    rw [walkFrom, he]
  have hstart : startOf s.cwd ⟨.root, [name]⟩ = [] := rfl
  refine statWithin_eq_ok.mpr ⟨?_, by simp [hbars], ?_⟩
  · rw [FileTree.stat, walk_short hnul hshort, hstart, walkFrom_enter htop hdots hname he hlink]
    simp [hend]
  · have htail : (if (⟨.root, [name]⟩ : Path) == Path.current then ["."] else []) = [] := rfl
    rw [trail, htail, hstart, trailFrom_enter htop hdots hname he hlink, trailFrom]
    simp [Trail.after]

/-- Where a name is free at the top, nothing is there. -/
theorem pathExists_of_free {name : String} (hbars : s.bars = {})
    (hnul : (⟨.root, [name]⟩ : Path).hasNul = false)
    (hshort : (⟨.root, [name]⟩ : Path).toString.utf8ByteSize < maxPathOctets)
    (hdots : name ≠ "..") (hname : name.utf8ByteSize ≤ maxNameOctets)
    (hfree : s.tree.find? [name] = none) : s.pathExists ⟨.root, [name]⟩ = .ok false := by
  have htop : s.tree.find? [] = some .directory := rfl
  have hstart : startOf s.cwd ⟨.root, [name]⟩ = [] := rfl
  have hwalk : s.tree.walkFrom true linkBudget (startOf s.cwd ⟨.root, [name]⟩) [name] =
      .ok (.vacant [] name) := by
    rw [walkFrom]
    simp [hstart, htop, hdots, hfree, Nat.not_lt.mpr hname]
  exact pathExists_of_vacant hbars hnul hshort hwalk

end SnippetRunner.Site
