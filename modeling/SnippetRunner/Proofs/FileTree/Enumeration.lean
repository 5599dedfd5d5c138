import Mathlib.Data.List.Perm.Basic
import SnippetRunner.Site

/-!
The order in which a file tree lists its entries. Each entry has a place of its own, so that
what a path leads to, whether links are followed or not, is found in the same way in any order.
Only the names of a directory come in another order.
-/
namespace SnippetRunner.FileTree

/-- Two trees have the same entries, each at a place of its own, in any two orders. -/
structure Reordered (t t' : FileTree) : Prop where
  entries : t.entries.Perm t'.entries
  once : (t.entries.map (·.1)).Nodup

section Lookup

variable {α β : Type} [BEq α] [LawfulBEq α]

/-- Of keys that differ each is found with the value that is listed with it. -/
theorem lookup_eq_some_iff_mem {entries : List (α × β)} (h : (entries.map (·.1)).Nodup) {k : α}
    {v : β} : entries.lookup k = some v ↔ (k, v) ∈ entries := by
  induction entries with
  | nil => simp
  | cons e rest ih =>
    obtain ⟨k', v'⟩ := e
    rw [List.map_cons, List.nodup_cons] at h
    by_cases hk : k = k'
    · subst hk
      have hnew : (k, v) ∉ rest := fun hmem => h.1 (List.mem_map.mpr ⟨_, hmem, rfl⟩)
      simp [hnew, eq_comm]
    · have hbeq : (k == k') = false := by simpa using hk
      simp [List.lookup_cons, hbeq, ih h.2, hk]

theorem lookup_perm {entries entries' : List (α × β)} (hperm : entries.Perm entries')
    (h : (entries.map (·.1)).Nodup) (k : α) : entries'.lookup k = entries.lookup k := by
  have h' : (entries'.map (·.1)).Nodup := (hperm.map _).nodup_iff.mp h
  ext v
  rw [lookup_eq_some_iff_mem h, lookup_eq_some_iff_mem h', hperm.mem_iff]

end Lookup

variable {t t' : FileTree}

theorem Reordered.symm (h : Reordered t t') : Reordered t' t :=
  ⟨h.entries.symm, (h.entries.map _).nodup_iff.mp h.once⟩

namespace Reordered

theorem find?_eq (h : Reordered t t') (loc : Location) : t'.find? loc = t.find? loc := by
  rw [find?, find?, lookup_perm h.entries h.once]

theorem walkFrom_eq (h : Reordered t t') (follow : Bool) (budget : Nat) (here : Location)
    (names : List String) :
    walkFrom t' follow budget here names = walkFrom t follow budget here names := by
  induction budget generalizing here names with
  | zero =>
    induction names generalizing here with
    | nil => simp only [walkFrom, h.find?_eq]
    | cons name rest ih => simp only [walkFrom, h.find?_eq, ih]
  | succ more ihlink =>
    induction names generalizing here with
    | nil => simp only [walkFrom, h.find?_eq]
    | cons name rest ih => simp only [walkFrom, h.find?_eq, ih, ihlink]

theorem walk_eq (h : Reordered t t') (cwd : Location) (follow : Bool) (p : Path) :
    walk t' cwd follow p = walk t cwd follow p := by
  simp only [walk, h.walkFrom_eq]

theorem stat_eq (h : Reordered t t') (cwd : Location) (p : Path) :
    stat t' cwd p = stat t cwd p := by
  simp only [stat, h.walk_eq]

theorem trailFrom_eq (h : Reordered t t') (follow : Bool) (budget : Nat) (tail : List String)
    (here : Location) (names : List String) :
    trailFrom t' follow budget tail here names = trailFrom t follow budget tail here names := by
  induction budget generalizing tail here names with
  | zero =>
    induction names generalizing here with
    | nil => simp only [trailFrom]
    | cons name rest ih => simp only [trailFrom, h.find?_eq, ih]
  | succ more ihlink =>
    induction names generalizing here with
    | nil => simp only [trailFrom]
    | cons name rest ih => simp only [trailFrom, h.find?_eq, ih, ihlink]

theorem statWithin_eq (h : Reordered t t') (barred : List Location) (cwd : Location) (p : Path) :
    statWithin t' barred cwd p = statWithin t barred cwd p := by
  rw [statWithin, statWithin, trail, trail, h.trailFrom_eq, h.stat_eq]

/-- The links of a tree add up to the same work in any order. -/
theorem realFuel_eq (h : Reordered t t') (names : List String) :
    realFuel t' names = realFuel t names := by
  have hlinks : t.linkTargets.Perm t'.linkTargets := h.entries.filterMap _
  refine (hlinks.foldl_eq' (fun a _ b _ n => ?_) _).symm
  omega

end Reordered

end SnippetRunner.FileTree

namespace SnippetRunner.Site

/-- The same surroundings, but for the order in which directories are listed. -/
structure Reordered (s s' : Site) : Prop where
  tree : s.tree.Reordered s'.tree
  cwd : s'.cwd = s.cwd
  env : s'.env = s.env
  bars : s'.bars = s.bars

namespace Reordered

variable {s s' : Site}

theorem symm (h : Reordered s s') : Reordered s' s :=
  ⟨h.tree.symm, h.cwd.symm, h.env.symm, h.bars.symm⟩

theorem stat_eq (h : Reordered s s') : s'.stat = s.stat := by
  funext p
  rw [Site.stat, h.bars, h.cwd, h.tree.statWithin_eq]
  rfl

end Reordered

end SnippetRunner.Site
