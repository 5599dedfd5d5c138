import Mathlib.Logic.Function.Basic
import Mathlib.Logic.Relation
import SnippetRunner.Proofs.FileTree.Making
import SnippetRunner.Proofs.FileTree.Removal
import SnippetRunner.Proofs.Success
import SnippetRunner.Workspace.Directory

/-!
What a work directory keeps. It starts empty, files are saved in it, it is cleaned, and now and
then something else removes it. At any time it holds the files that were saved since it was last
emptied, and no directory without a file below it.
-/
namespace SnippetRunner.Workspace

open FileTree Success

abbrev Saved := List String → Option String

/-- A file tree with a work directory, and what is saved there. -/
structure Stage where
  tree : FileTree
  saved : Saved

/-- A work directory that is there and holds nothing. It has a name of its own, and the path to it
does not lead through it: when it is removed, the directory that held it can still be reached. -/
structure Founded (w : Workspace) (t₀ : FileTree) (top : Location) : Prop where
  there : t₀.stat w.cwd w.base = .ok (top, .directory)
  bare : ∀ names, names ≠ [] → t₀.find? (top ++ names) = none
  named : w.base.parts ≠ []
  proper : w.base.name ≠ ".."
  beside : ∃ above, (t₀.removeAll top).stat w.cwd w.base.parent = .ok (above, .directory)

/-- A failure over a file where a directory would have to be, or the other way round. -/
inductive Clash : Failure → Prop
  | create {path : Path} {fault : FileFault} : Conflict fault.error →
      Clash (.workspaceFailed (.create path fault))
  | write {path : Path} {fault : FileFault} : Conflict fault.error →
      Clash (.workspaceFailed (.write path fault))

/-- The names of a saved file, from the work directory on. -/
def key (language : String) (relative : Path) : List String :=
  language :: relative.parts

/-- One thing that happens to a work directory. A save counts once it succeeds, a cleaning that
succeeds or a removal ends what was saved, and whatever fails leaves it as it was. -/
inductive Step (w : Workspace) (top : Location) : Stage → Stage → Prop
  | ensured {s : Stage} {r : Except Failure Path} {t : FileTree} :
      outcome w.ensure s.tree = (r, t) → Step w top s ⟨t, s.saved⟩
  | saved {s : Stage} {language : String} {relative path : Path} {content : String} {t : FileTree} :
      Path.IsName language → Path.Down relative →
      outcome (w.save language relative content) s.tree = (.ok path, t) →
      Step w top s ⟨t, Function.update s.saved (key language relative) (some content)⟩
  | refused {s : Stage} {language : String} {relative : Path} {content : String} {f : Failure}
      {t : FileTree} : Path.IsName language → Path.Down relative →
      outcome (w.save language relative content) s.tree = (.error f, t) → Clash f →
      Step w top s ⟨t, s.saved⟩
  | cleaned {s : Stage} {t : FileTree} : outcome w.clean s.tree = (.ok (), t) →
      Step w top s ⟨t, fun _ => none⟩
  | uncleaned {s : Stage} {f : Failure} {t : FileTree} :
      outcome w.clean s.tree = (.error f, t) → Step w top s ⟨t, s.saved⟩
  | removed {s : Stage} : Step w top s ⟨s.tree.removeAll top, fun _ => none⟩

/-- Any number of things happened since the work directory was made. -/
def History (w : Workspace) (t₀ : FileTree) (top : Location) : Stage → Prop :=
  Relation.ReflTransGen (Step w top) ⟨t₀, fun _ => none⟩

structure Kept (base : Path) (t₀ : FileTree) (top : Location) (t : FileTree) (saved : Saved) :
    Prop where
  rooted : Rooted t top
  beside : ∀ loc, ¬ top <+: loc → t.find? loc = t₀.find? loc
  held : ∀ names content, saved names = some content →
    ∃ x, t.find? (top ++ names) = some (.file (Text.encodeUtf8 content) x)
  known : ∀ names octets x, t.find? (top ++ names) = some (.file octets x) →
    ∃ content, saved names = some content
  filled : ∀ names, names ≠ [] → t.find? (top ++ names) = some .directory →
    ∃ more content, saved (names ++ more) = some content
  fits : ∀ names content, saved names = some content →
    Fits base names ∧ ∀ name ∈ names, Path.IsName name

structure Gone (t₀ : FileTree) (top : Location) (t : FileTree) (saved : Saved) : Prop where
  lost : ∀ loc, t.find? loc = if top <+: loc then none else t₀.find? loc
  bare : ∀ names, saved names = none

/-- The work directory is there with what is saved, or it is missing. -/
def Settled (base : Path) (t₀ : FileTree) (top : Location) (t : FileTree) (saved : Saved) : Prop :=
  Kept base t₀ top t saved ∨ Gone t₀ top t saved

def SameFiles (t t' : FileTree) : Prop :=
  ∀ loc octets x, t'.find? loc = some (.file octets x) ↔ t.find? loc = some (.file octets x)

structure Placed (w : Workspace) (t : FileTree) (above : Location) : Prop where
  holds : t.find? above = some .directory
  walk : t.walk w.cwd false w.base =
    .ok (match t.find? (above ++ [w.base.name]) with
      | none => .vacant above w.base.name
      | some e => .existing (above ++ [w.base.name]) e)

section Place

variable {w : Workspace} {t₀ t : FileTree} {top above : Location}

theorem grown_of_beside (hbeside : ∀ loc, ¬ top <+: loc → t.find? loc = t₀.find? loc)
    (hplain : PlainBelow t top) : Grown (t₀.removeAll top) t := by
  constructor
  · intro loc e he
    rw [find?_removeAll] at he
    split at he
    · cases he
    · next hkept =>
      by_cases hroot : loc = []
      · subst hroot
        cases he
        exact ⟨.directory, rfl, .same _⟩
      · exact ⟨e, (hbeside loc fun hbelow => hkept ⟨hbelow, hroot⟩).trans he, .same e⟩
  · intro loc e he
    by_cases hbelow : top <+: loc
    · obtain ⟨names, rfl⟩ := hbelow
      exact .inl (hplain names e he)
    · right
      rw [find?_removeAll, if_neg fun h => hbelow h.1, ← hbeside loc hbelow, he]

theorem Founded.plain (h : Founded w t₀ top) : PlainBelow t₀ top :=
  (rooted_bare (find?_of_stat h.there) h.bare).plain

theorem Founded.grown (h : Founded w t₀ top) : Grown (t₀.removeAll top) t₀ :=
  grown_of_beside (fun _ _ => rfl) h.plain

/-- Whatever else is in the tree, a walk to the work directory comes to the directory that held it,
and has one more name to go by. -/
theorem Founded.walk_last (h : Founded w t₀ top)
    (habove : (t₀.removeAll top).stat w.cwd w.base.parent = .ok (above, .directory))
    (hgrown : Grown (t₀.removeAll top) t) (follow : Bool) :
    t.find? above = some .directory ∧ ∃ left, t.walk w.cwd follow w.base =
      walkFrom t follow left above [w.base.name] := by
  have hparts : w.base.parts = w.base.parent.parts ++ [w.base.name] := by
    rw [Path.parent, Path.name, List.getLast?_eq_some_getLast h.named, Option.getD_some,
      List.dropLast_concat_getLast]
  have hdir := hgrown.directory (find?_of_stat habove)
  have hstat := stat_grown hgrown habove hdir
  obtain ⟨left, hleft⟩ : ∃ left, walkFrom t follow linkBudget (startOf w.cwd w.base)
      (w.base.parent.parts ++ [w.base.name]) = walkFrom t follow left above [w.base.name] :=
    walkFrom_through (fun h => absurd h (List.cons_ne_nil _ _)) (walk_ok (stat_eq_ok.mp hstat))
  refine ⟨hdir, left, ?_⟩
  rw [walk_eq (stat_eq_ok.mp h.there), hparts, hleft]

theorem Founded.name_le (h : Founded w t₀ top) :
    w.base.name.utf8ByteSize ≤ maxNameOctets := by
  obtain ⟨above, habove⟩ := h.beside
  obtain ⟨hdir, left, hleft⟩ := h.walk_last habove h.grown true
  by_contra hlong
  rw [stat_eq_ok.mp h.there, walkFrom, hdir] at hleft
  simp only [beq_iff_eq, h.proper, if_false] at hleft
  rw [if_pos (by omega)] at hleft
  cases hleft

theorem Founded.placed (h : Founded w t₀ top) :
    ∃ above, ∀ t, Grown (t₀.removeAll top) t → Placed w t above := by
  obtain ⟨above, habove⟩ := h.beside
  refine ⟨above, fun t hgrown => ?_⟩
  obtain ⟨hdir, left, hleft⟩ := h.walk_last habove hgrown false
  have hsize := h.name_le
  refine ⟨hdir, ?_⟩
  rw [hleft, walkFrom, hdir]
  simp only [beq_iff_eq, h.proper, if_false]
  rw [if_neg (by omega)]
  cases hfound : t.find? (above ++ [w.base.name]) with
  | none => rfl
  | some e =>
    cases e with
    | link target => rfl
    | _ =>
      dsimp only
      rw [walkFrom, hfound]

/-- Where there is no link at the path, links need not be followed. -/
theorem Placed.stat (h : Placed w t above) {e : Entry}
    (he : t.find? (above ++ [w.base.name]) = some e) (hlink : ∀ target, e ≠ .link target) :
    t.stat w.cwd w.base = .ok (above ++ [w.base.name], e) := by
  have hwalk := h.walk
  rw [he] at hwalk
  rw [stat_eq_ok, walk_eq hwalk]
  exact walkFrom_followed (fun target htarget => hlink target (Option.some.inj htarget))
    (walk_ok hwalk)

theorem Placed.taken (h : Placed w t above) {loc : Location} {e : Entry}
    (hstat : t.stat w.cwd w.base = .ok (loc, e)) :
    ∃ e', t.find? (above ++ [w.base.name]) = some e' := by
  cases hfound : t.find? (above ++ [w.base.name]) with
  | some e' => exact ⟨e', rfl⟩
  | none =>
    have hwalk := h.walk
    rw [hfound] at hwalk
    have hfollowed : t.walk w.cwd true w.base = .ok (.vacant above w.base.name) := by
      rw [walk_eq hwalk]
      exact walkFrom_followed nofun (walk_ok hwalk)
    cases hfollowed.symm.trans (stat_eq_ok.mp hstat)

theorem Founded.top_ne_nil (h : Founded w t₀ top) : top ≠ [] := by
  rintro rfl
  obtain ⟨above, habove⟩ := h.placed
  obtain ⟨e, he⟩ := (habove t₀ h.grown).taken h.there
  cases (h.bare (above ++ [w.base.name]) (by simp)).symm.trans he

end Place

section Outcomes

variable {w : Workspace} {t t' : FileTree} {p : Path} {fault : FileFault}

theorem makeDirectory_made {kind : FileFault → WorkspaceFault}
    (h : t.makeDirectories w.cwd p = (t', none)) :
    outcome (w.makeDirectory p kind) t = (.ok (), t') := by
  unfold makeDirectory
  simp only [outcome_bind, outcome_get, outcome_set, h]
  rfl

theorem makeDirectory_refused {kind : FileFault → WorkspaceFault}
    (h : t.makeDirectories w.cwd p = (t', some fault)) :
    outcome (w.makeDirectory p kind) t = (.error (failureOf kind fault), t') := by
  unfold makeDirectory
  simp only [outcome_bind, outcome_get, outcome_set, h]
  rfl

theorem ensure_made (h : t.makeDirectories w.cwd w.base = (t', none)) :
    outcome w.ensure t = (.ok w.base, t') := by
  unfold ensure
  rw [outcome_bind, makeDirectory_made h]
  rfl

theorem ensure_refused (h : t.makeDirectories w.cwd w.base = (t', some fault)) :
    outcome w.ensure t = (.error (failureOf (.create w.base) fault), t') := by
  unfold ensure
  rw [outcome_bind, makeDirectory_refused h]

/-- Once the old work directory is removed, or was missing, cleaning makes a new one. -/
theorem clean_removed (h : t.removeTree w.cwd w.base = .ok t' ∨
      t' = t ∧ ∃ fault, t.removeTree w.cwd w.base = .error fault ∧ fault.error = .noEntry) :
    outcome w.clean t = outcome (w.ensure >>= fun _ => pure ()) t' := by
  unfold clean
  rw [outcome_bind, outcome_get]
  dsimp only
  rcases h with h | ⟨rfl, fault, h, hfault⟩
  · rw [h]
    rfl
  · rw [h]
    dsimp only
    rw [hfault]
    rfl

theorem clean_made {t₁ : FileTree} (h : t.removeTree w.cwd w.base = .ok t₁ ∨
      t₁ = t ∧ ∃ fault, t.removeTree w.cwd w.base = .error fault ∧ fault.error = .noEntry)
    (hensure : outcome w.ensure t₁ = (.ok w.base, t')) : outcome w.clean t = (.ok (), t') := by
  rw [clean_removed h, outcome_bind, hensure]
  rfl

theorem clean_refused (h : t.removeTree w.cwd w.base = .error fault)
    (hfault : fault.error ≠ .noEntry) :
    outcome w.clean t = (.error (failureOf (.remove w.base) fault), t) := by
  unfold clean
  rw [outcome_bind, outcome_get]
  dsimp only
  rw [h]
  dsimp only
  rw [if_pos (by simpa using hfault)]
  rfl

theorem clash_failureOf (h : Clash (failureOf (.write p) fault)) : Conflict fault.error := by
  unfold failureOf at h
  split at h
  · cases h
    assumption
  · cases h

theorem SameFiles.refl (t : FileTree) : SameFiles t t := fun _ _ _ => .rfl

end Outcomes

section Changes

variable {w : Workspace} {t₀ t t' : FileTree} {top : Location} {saved : Saved}

theorem Kept.grown (h : Kept w.base t₀ top t saved) : Grown (t₀.removeAll top) t :=
  grown_of_beside h.beside h.rooted.plain

/-- A work directory without anything in it. -/
theorem kept_bare (hroot : t.find? top = some .directory)
    (hbare : ∀ names, names ≠ [] → t.find? (top ++ names) = none)
    (hbeside : ∀ loc, ¬ top <+: loc → t.find? loc = t₀.find? loc)
    (hsaved : ∀ names, saved names = none) : Kept w.base t₀ top t saved where
  rooted := rooted_bare hroot hbare
  beside := hbeside
  held names content h := by cases (hsaved names).symm.trans h
  known names octets x he := by
    by_cases hnames : names = []
    · rw [hnames, List.append_nil, hroot] at he
      cases he
    · cases (hbare names hnames).symm.trans he
  filled names hnames he := by cases (hbare names hnames).symm.trans he
  fits names content h := by cases (hsaved names).symm.trans h

theorem Founded.kept (h : Founded w t₀ top) : Kept w.base t₀ top t₀ fun _ => none :=
  kept_bare (find?_of_stat h.there) h.bare (fun _ _ => rfl) fun _ => rfl

theorem Gone.missing (h : Gone t₀ top t saved) (names : List String) :
    t.find? (top ++ names) = none := by
  rw [h.lost, if_pos (List.prefix_append ..)]

theorem Gone.grown (h : Gone t₀ top t saved) : Grown (t₀.removeAll top) t := by
  refine grown_of_beside (fun loc hloc => by rw [h.lost, if_neg hloc]) fun names e he => ?_
  cases (h.missing names).symm.trans he

/-- The work directory stays reachable by its path as long as it is there. -/
theorem Kept.stat (hfounded : Founded w t₀ top) (h : Kept w.base t₀ top t saved) :
    t.stat w.cwd w.base = .ok (top, .directory) := by
  have hgrown : Grown t₀ t := by
    constructor
    · intro loc e he
      by_cases hbelow : top <+: loc
      · obtain ⟨names, rfl⟩ := hbelow
        by_cases hnames : names = []
        · rw [hnames, List.append_nil, find?_of_stat hfounded.there] at he
          cases he
          exact ⟨.directory, by rw [hnames, List.append_nil, h.rooted.root], .same _⟩
        · cases (hfounded.bare names hnames).symm.trans he
      · exact ⟨e, (h.beside loc hbelow).trans he, .same e⟩
    · intro loc e he
      by_cases hbelow : top <+: loc
      · obtain ⟨names, rfl⟩ := hbelow
        exact .inl (h.rooted.plain names e he)
      · exact .inr ((h.beside loc hbelow).symm.trans he)
  exact stat_grown hgrown hfounded.there h.rooted.root

theorem Gone.stat (hfounded : Founded w t₀ top) (h : Gone t₀ top t saved) :
    t.stat w.cwd w.base = .error .noEntry := by
  have hpart : Part t t₀ := by
    intro loc e he
    rw [h.lost] at he
    split at he
    · cases he
    · exact he
  refine (stat_part hpart hfounded.there).resolve_left fun hstat => ?_
  have hroot := find?_of_stat hstat
  rw [← List.append_nil top, h.missing] at hroot
  cases hroot

/-- What was saved is kept when the tree stays what it is. -/
theorem Kept.same (h : Kept w.base t₀ top t saved) (hsame : ∀ loc, t'.find? loc = t.find? loc) :
    Kept w.base t₀ top t' saved := by
  obtain ⟨⟨hroot, hplain, hclosed⟩, hbeside, hheld, hknown, hfilled, hfits⟩ := h
  simp only [PlainBelow, ← hsame] at hroot hplain hclosed hbeside hheld hknown hfilled
  exact ⟨⟨hroot, hplain, hclosed⟩, hbeside, hheld, hknown, hfilled, hfits⟩

/-- Removing the whole work directory leaves the rest of the tree. -/
theorem Kept.removed (hfounded : Founded w t₀ top) (h : Kept w.base t₀ top t saved) :
    Gone t₀ top (t.removeAll top) fun _ => none := by
  refine ⟨fun loc => ?_, fun _ => rfl⟩
  rw [find?_removeAll]
  by_cases hbelow : top <+: loc
  · have hne : loc ≠ [] := by
      rintro rfl
      exact hfounded.top_ne_nil (List.prefix_nil.mp hbelow)
    rw [if_pos ⟨hbelow, hne⟩, if_pos hbelow]
  · rw [if_neg fun h => hbelow h.1, if_neg hbelow, h.beside loc hbelow]

theorem Gone.removed (h : Gone t₀ top t saved) :
    Gone t₀ top (t.removeAll top) fun _ => none := by
  refine ⟨fun loc => ?_, fun _ => rfl⟩
  rw [find?_removeAll, h.lost]
  split <;> split <;> simp_all

/-- A save changes what is kept by one file. -/
theorem Kept.written (h : Kept w.base t₀ top t saved) {names : List String} {content : String}
    (hne : names ≠ []) (hfits : Fits w.base names) (hnames : ∀ name ∈ names, Path.IsName name)
    (hwritten : Written t t' top names (Text.encodeUtf8 content)) :
    Kept w.base t₀ top t' (Function.update saved names (some content)) where
  rooted := hwritten.rooted h.rooted hne
  beside loc hloc := by
    rw [← h.beside loc hloc]
    refine hwritten.elsewhere loc ?_
    rintro front - rfl
    exact hloc (List.prefix_append ..)
  held other old hsaved := by
    by_cases hother : other = names
    · subst hother
      rw [Function.update_self] at hsaved
      cases hsaved
      exact hwritten.here
    · rw [Function.update_of_ne hother] at hsaved
      obtain ⟨x, hold⟩ := h.held other old hsaved
      refine ⟨x, (hwritten.below fun hway => ?_).trans hold⟩
      -- a file that was there is not on the way to the new one
      obtain ⟨e, he, hstays⟩ := hwritten.grown.kept _ _ hold
      cases (hwritten.inner other hway hother).symm.trans he
      cases hstays
  known other octets x he := by
    by_cases hother : other = names
    · exact ⟨content, by rw [hother, Function.update_self]⟩
    · rw [Function.update_of_ne hother]
      refine h.known other octets x (hwritten.below (fun hway => ?_) ▸ he)
      cases (hwritten.inner other hway hother).symm.trans he
  filled other hother he := by
    by_cases hway : other <+: names
    · obtain ⟨more, rfl⟩ := hway
      exact ⟨more, content, by rw [Function.update_self]⟩
    · obtain ⟨more, old, hold⟩ := h.filled other hother (hwritten.below hway ▸ he)
      by_cases heq : other ++ more = names
      · exact ⟨more, content, by rw [heq, Function.update_self]⟩
      · exact ⟨more, old, by rw [Function.update_of_ne heq, hold]⟩
  fits other old hsaved := by
    by_cases hother : other = names
    · exact hother ▸ ⟨hfits, hnames⟩
    · rw [Function.update_of_ne hother] at hsaved
      exact h.fits other old hsaved

end Changes

section Operations

variable {w : Workspace} {t₀ t : FileTree} {top above : Location} {saved : Saved}

theorem Kept.ensured (hfounded : Founded w t₀ top) (h : Kept w.base t₀ top t saved) :
    outcome w.ensure t = (.ok w.base, t) :=
  ensure_made (makeDirectories_existing (h.stat hfounded))

/-- Where nothing is in its place, a missing work directory is made anew. -/
theorem Gone.ensured (hfounded : Founded w t₀ top) (h : Gone t₀ top t saved)
    (hplaced : Placed w t above) (hplaced₀ : Placed w t₀ above)
    (hfree : t.find? (above ++ [w.base.name]) = none) :
    ∃ t', outcome w.ensure t = (.ok w.base, t') ∧ Kept w.base t₀ top t' saved ∧
      SameFiles t t' := by
  have htop : top = above ++ [w.base.name] := by
    obtain ⟨e, he⟩ := hplaced₀.taken hfounded.there
    have hbelow : top <+: above ++ [w.base.name] := by
      by_contra hnot
      rw [h.lost, if_neg hnot, he] at hfree
      cases hfree
    refine (List.prefix_concat_iff.mp hbelow).resolve_right fun habove => ?_
    have hdir := hplaced.holds
    rw [h.lost, if_pos habove] at hdir
    cases hdir
  have hmade : t.makeDirectory w.cwd w.base = .ok (t.insert top .directory) := by
    rw [FileTree.makeDirectory, hplaced.walk, hfree, htop]
  have hfound (loc : Location) : (t.insert top .directory).find? loc =
      if loc = top then some .directory else t.find? loc :=
    find?_insert t hfounded.top_ne_nil .directory loc
  refine ⟨_, ensure_made (makeDirectories_of_made hmade), kept_bare ?_ ?_ ?_ h.bare, ?_⟩
  · rw [hfound, if_pos rfl]
  · intro names hnames
    rw [hfound, if_neg (by simpa using hnames), h.missing]
  · intro loc hloc
    have hne : loc ≠ top := by
      rintro rfl
      exact hloc List.prefix_rfl
    rw [hfound, if_neg hne, h.lost, if_neg hloc]
  · intro loc octets x
    rw [hfound]
    split
    · next heq =>
      have hmissing := h.missing []
      rw [List.append_nil] at hmissing
      simp [heq, hmissing]
    · rfl

/-- Something in its place is a link that leads nowhere, and keeps it from being made. -/
theorem Gone.blocked (hfounded : Founded w t₀ top) (h : Gone t₀ top t saved)
    (hplaced : Placed w t above) {e : Entry} (he : t.find? (above ++ [w.base.name]) = some e) :
    ∃ f, outcome w.ensure t = (.error f, t) := by
  have hmade : t.makeDirectory w.cwd w.base = .error .entryExists := by
    rw [FileTree.makeDirectory, hplaced.walk, he]
  have hsettle := makeDirectories_of_refused hmade (by decide)
  rcases settleMake_cases t w.cwd w.base .entryExists with ⟨⟨loc, hstat⟩, -⟩ | ⟨fault, hfault, -⟩
  · cases (h.stat hfounded).symm.trans hstat
  · exact ⟨_, ensure_refused (hsettle.trans hfault)⟩

/-- Ensuring leaves the work directory there with what it held, or fails and changes nothing. -/
theorem ensure_settled (hfounded : Founded w t₀ top) (h : Settled w.base t₀ top t saved) :
    (∃ t', outcome w.ensure t = (.ok w.base, t') ∧ Kept w.base t₀ top t' saved ∧ SameFiles t t') ∨
      ∃ f, outcome w.ensure t = (.error f, t) := by
  rcases h with h | h
  · exact .inl ⟨t, h.ensured hfounded, h, .refl t⟩
  · obtain ⟨above, hplaced⟩ := hfounded.placed
    have hplaced₀ := hplaced t₀ hfounded.grown
    cases hfound : t.find? (above ++ [w.base.name]) with
    | none => exact .inl (h.ensured hfounded (hplaced t h.grown) hplaced₀ hfound)
    | some e => exact .inr (h.blocked hfounded (hplaced t h.grown) hfound)

/-- A file is written to a work directory, or not, and a conflict changes nothing. -/
theorem Kept.writeFile (hfounded : Founded w t₀ top) (h : Kept w.base t₀ top t saved)
    {names : List String} (hne : names ≠ []) (hnames : ∀ name ∈ names, Path.IsName name)
    (content : String) :
    (∃ t', outcome (w.writeFile (w.base.under names) content) t = (.ok (), t') ∧
        Kept w.base t₀ top t' (Function.update saved names (some content))) ∨
      ∃ fault t', outcome (w.writeFile (w.base.under names) content) t =
          (.error (failureOf (.write (w.base.under names)) fault), t') ∧
        (Conflict fault.error → ∀ loc, t'.find? loc = t.find? loc) := by
  obtain ⟨front, last, rfl⟩ : ∃ front last, names = front ++ [last] :=
    ⟨_, _, (List.dropLast_concat_getLast hne).symm⟩
  have hlast : last ≠ ".." := (hnames last (by simp)).not_above
  have hdots : ".." ∉ front := fun hmem => (hnames _ (List.mem_append_left _ hmem)).not_above rfl
  unfold Workspace.writeFile
  rw [Path.under_parent]
  rcases makeDirectories_under h.rooted (h.stat hfounded) hdots with
    ⟨t₁, hmade, hdirs⟩ | ⟨t₁, fault, hmade, hfault⟩
  · rw [outcome_bind, makeDirectory_made hmade]
    dsimp only
    rw [outcome_bind, outcome_get]
    dsimp only [writeText]
    rcases writeOctets_under h.rooted (h.stat hfounded) hdirs hlast with
      ⟨t₂, hwrite, hwritten, hfits⟩ | ⟨e, hwrite, hsame⟩
    · rw [hwrite]
      exact .inl ⟨t₂, rfl, h.written hne hfits hnames hwritten⟩
    · rw [hwrite]
      exact .inr ⟨.at_ e (w.base.under (front ++ [last])).toString, t₁, rfl, hsame⟩
  · rw [outcome_bind, makeDirectory_refused hmade]
    exact .inr ⟨fault, t₁, rfl, fun hconflict loc => by rw [hfault hconflict]⟩

theorem languageDir_join {language : String} {relative : Path} (hlanguage : Path.IsName language)
    (hrelative : Path.Down relative) :
    (w.languageDir language).join relative = w.base.under (key language relative) := by
  rw [languageDir, Path.child_isName hlanguage, Path.join_down hrelative]
  simp [Path.under, Path.entry, key]

/-- A save puts its content among what is saved, or fails, and a conflict changes no file. -/
theorem save_settled (hfounded : Founded w t₀ top) (h : Settled w.base t₀ top t saved)
    {language : String} {relative : Path} (hlanguage : Path.IsName language)
    (hrelative : Path.Down relative) (content : String) :
    (∃ t', outcome (w.save language relative content) t =
          (.ok (w.base.under (key language relative)), t') ∧
        Kept w.base t₀ top t' (Function.update saved (key language relative) (some content))) ∨
      ∃ f t', outcome (w.save language relative content) t = (.error f, t') ∧
        (Clash f → Settled w.base t₀ top t' saved ∧ SameFiles t t') := by
  have hnames : ∀ name ∈ key language relative, Path.IsName name :=
    List.forall_mem_cons.mpr ⟨hlanguage, hrelative.names⟩
  unfold save
  rw [outcome_bind]
  rcases ensure_settled hfounded h with ⟨t₁, hensure, hkept, hfiles⟩ | ⟨f, hensure⟩
  · rw [hensure, languageDir_join hlanguage hrelative]
    dsimp only
    rw [outcome_bind]
    have hne : key language relative ≠ [] := List.cons_ne_nil language relative.parts
    rcases hkept.writeFile hfounded hne hnames content with
      ⟨t₂, hwrite, hkept'⟩ | ⟨fault, t₂, hwrite, hsame⟩
    · rw [hwrite]
      exact .inl ⟨t₂, rfl, hkept'⟩
    · rw [hwrite]
      refine .inr ⟨_, t₂, rfl, fun hclash => ?_⟩
      have hfind := hsame (clash_failureOf hclash)
      refine ⟨.inl (hkept.same hfind), fun loc octets x => ?_⟩
      rw [hfind]
      exact hfiles loc octets x
  · rw [hensure]
    exact .inr ⟨f, t, rfl, fun _ => ⟨h, .refl t⟩⟩

/-- Where a file or a device is in place of the work directory, it is not removed. -/
theorem Placed.refuses (h : Placed w t above) {e : Entry}
    (he : t.find? (above ++ [w.base.name]) = some e) (hlink : ∀ target, e ≠ .link target)
    (hdir : e ≠ .directory) : ∃ f, outcome w.clean t = (.error f, t) := by
  have hwalk := h.walk
  rw [he] at hwalk
  have hremove : t.removeTree w.cwd w.base = .error (.below .notDirectory w.base.toString) := by
    rw [removeTree, hwalk]
    cases e with
    | directory => exact absurd rfl hdir
    | link target => exact absurd rfl (hlink target)
    | _ => rfl
  exact ⟨_, clean_refused hremove nofun⟩

/-- A work directory is emptied, unless the path to it ends with a link. -/
theorem Kept.cleaned (hfounded : Founded w t₀ top) (h : Kept w.base t₀ top t saved) :
    (∃ t', outcome w.clean t = (.ok (), t') ∧ Kept w.base t₀ top t' fun _ => none) ∨
      ∃ f, outcome w.clean t = (.error f, t) := by
  obtain ⟨above, hplaced⟩ := hfounded.placed
  have hplaced₀ := hplaced t₀ hfounded.grown
  have hhere := hplaced t h.grown
  obtain ⟨e, he⟩ := hhere.taken (h.stat hfounded)
  have hwalk := hhere.walk
  rw [he] at hwalk
  cases e with
  | directory =>
    obtain rfl : top = above ++ [w.base.name] := by
      cases (h.stat hfounded).symm.trans (hhere.stat he nofun)
      rfl
    have hremove : t.removeTree w.cwd w.base = .ok (t.removeAll (above ++ [w.base.name])) := by
      rw [removeTree, hwalk]
    have hgone := h.removed hfounded
    have hfree := hgone.missing []
    rw [List.append_nil] at hfree
    obtain ⟨t', hensure, hkept, -⟩ := hgone.ensured hfounded (hplaced _ hgone.grown) hplaced₀ hfree
    exact .inl ⟨t', clean_made (.inl hremove) hensure, hkept⟩
  | link target =>
    have hremove : t.removeTree w.cwd w.base = .error (.at_ .linkAtTop w.base.toString) := by
      rw [removeTree, hwalk]
      dsimp only
      rw [h.stat hfounded]
    exact .inr ⟨_, clean_refused hremove nofun⟩
  | _ => exact .inr (hhere.refuses he nofun nofun)

/-- A missing work directory is made, unless the path to it ends with a link. -/
theorem Gone.cleaned (hfounded : Founded w t₀ top) (h : Gone t₀ top t saved) :
    (∃ t', outcome w.clean t = (.ok (), t') ∧ Kept w.base t₀ top t' fun _ => none) ∨
      ∃ f, outcome w.clean t = (.error f, t) := by
  obtain ⟨above, hplaced⟩ := hfounded.placed
  have hplaced₀ := hplaced t₀ hfounded.grown
  have hhere := hplaced t h.grown
  have hwalk := hhere.walk
  cases he : t.find? (above ++ [w.base.name]) with
  | none =>
    rw [he] at hwalk
    have hremove : t.removeTree w.cwd w.base = .error (.at_ .noEntry w.base.toString) := by
      rw [removeTree, hwalk]
    obtain ⟨t', hensure, hkept, -⟩ := h.ensured hfounded hhere hplaced₀ he
    refine .inl ⟨t', clean_made (.inr ⟨rfl, _, hremove, rfl⟩) hensure, ?_⟩
    rwa [funext h.bare] at hkept
  | some e =>
    rw [he] at hwalk
    cases e with
    | directory => cases (h.stat hfounded).symm.trans (hhere.stat he nofun)
    | link target =>
      have hremove : t.removeTree w.cwd w.base = .error (.at_ .noEntry w.base.toString) := by
        rw [removeTree, hwalk]
        dsimp only
        rw [h.stat hfounded]
      obtain ⟨f, hensure⟩ := h.blocked hfounded hhere he
      refine .inr ⟨f, ?_⟩
      rw [clean_removed (.inr ⟨rfl, _, hremove, rfl⟩), outcome_bind, hensure]
    | _ => exact .inr (hhere.refuses he nofun nofun)

/-- Cleaning leaves an empty work directory, or fails and changes nothing. -/
theorem clean_settled (hfounded : Founded w t₀ top) (h : Settled w.base t₀ top t saved) :
    (∃ t', outcome w.clean t = (.ok (), t') ∧ Kept w.base t₀ top t' fun _ => none) ∨
      ∃ f, outcome w.clean t = (.error f, t) :=
  h.elim (·.cleaned hfounded) (·.cleaned hfounded)

/-- Whatever happens to a work directory, it is there with what is saved, or it is missing. -/
theorem Step.settled (hfounded : Founded w t₀ top) {s s' : Stage} (hstep : Step w top s s')
    (h : Settled w.base t₀ top s.tree s.saved) : Settled w.base t₀ top s'.tree s'.saved := by
  cases hstep with
  | ensured houtcome =>
    rcases ensure_settled hfounded h with ⟨t', hensure, hkept, -⟩ | ⟨f, hensure⟩
    · cases houtcome.symm.trans hensure
      exact .inl hkept
    · cases houtcome.symm.trans hensure
      exact h
  | saved hlanguage hrelative houtcome =>
    rcases save_settled hfounded h hlanguage hrelative _ with ⟨t', hsave, hkept⟩ | ⟨f, t', hsave, -⟩
    · cases houtcome.symm.trans hsave
      exact .inl hkept
    · cases houtcome.symm.trans hsave
  | refused hlanguage hrelative houtcome hclash =>
    rcases save_settled hfounded h hlanguage hrelative _ with ⟨t', hsave, -⟩ | ⟨f, t', hsave, hsame⟩
    · cases houtcome.symm.trans hsave
    · cases houtcome.symm.trans hsave
      exact (hsame hclash).1
  | cleaned houtcome =>
    rcases clean_settled hfounded h with ⟨t', hclean, hkept⟩ | ⟨f, hclean⟩
    · cases houtcome.symm.trans hclean
      exact .inl hkept
    · cases houtcome.symm.trans hclean
  | uncleaned houtcome =>
    rcases clean_settled hfounded h with ⟨t', hclean, -⟩ | ⟨f, hclean⟩
    · cases houtcome.symm.trans hclean
    · cases houtcome.symm.trans hclean
      exact h
  | removed => exact .inr (h.elim (·.removed hfounded) (·.removed))

theorem History.settled (hfounded : Founded w t₀ top) {s : Stage} (h : History w t₀ top s) :
    Settled w.base t₀ top s.tree s.saved := by
  induction h with
  | refl => exact .inl hfounded.kept
  | tail _ hstep ih => exact hstep.settled hfounded ih

end Operations

end SnippetRunner.Workspace
