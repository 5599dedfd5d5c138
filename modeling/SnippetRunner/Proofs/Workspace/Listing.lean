import Mathlib
import SnippetRunner.Proofs.Project.Everything
import SnippetRunner.Proofs.Workspace.Keeping

/-!
What a work directory lists. Whatever happened to it, the list names the saved files and no other
ones, in order, and the directory counts as empty exactly when nothing is listed.
-/
namespace SnippetRunner.Workspace

open FileTree Success

section Contents

variable {w : Workspace} {t₀ t : FileTree} {top : Location} {saved : Saved}

theorem Kept.ne_nil (h : Kept w.base t₀ top t saved) {names : List String} {content : String}
    (hsaved : saved names = some content) : names ≠ [] := by
  rintro rfl
  obtain ⟨x, he⟩ := h.held [] content hsaved
  rw [List.append_nil, h.rooted.root] at he
  cases he

/-- Whatever is in the work directory is a saved file or on the way to one. -/
theorem Kept.leads (h : Kept w.base t₀ top t saved) {names : List String} (hne : names ≠ [])
    {e : Entry} (he : t.find? (top ++ names) = some e) :
    ∃ more content, saved (names ++ more) = some content := by
  cases e with
  | directory => exact h.filled names hne he
  | file octets x =>
    obtain ⟨content, hsaved⟩ := h.known names octets x he
    exact ⟨[], content, by rwa [List.append_nil]⟩
  | _ => exact absurd he fun he => h.rooted.plain names _ he

theorem Kept.legible (hfounded : Founded w t₀ top) (h : Kept w.base t₀ top t saved) :
    Project.Legible (w.site t) w.base top where
  rooted := h.rooted
  bars := rfl
  there := statWithin_directory (h.stat hfounded)
  fits names e he := by
    by_cases hne : names = []
    · obtain ⟨hnul, hshort⟩ := form_of_walk (stat_eq_ok.mp (h.stat hfounded))
      rw [hne]
      exact ⟨by rwa [Path.under_nil], by rwa [Path.under_nil], fun _ hmem => by cases hmem⟩
    · obtain ⟨more, content, hsaved⟩ := h.leads hne he
      exact (h.fits _ content hsaved).1.front hfounded.named (List.prefix_append ..)

theorem Kept.isFile_iff (h : Kept w.base t₀ top t saved) {names : List String} {e : Entry}
    (he : t.find? (top ++ names) = some e) :
    isFileEntry e = true ↔ ∃ content, saved names = some content := by
  constructor
  · intro hfile
    cases e with
    | file octets x => exact h.known names octets x he
    | _ => cases hfile
  · rintro ⟨content, hsaved⟩
    obtain ⟨x, hfile⟩ := h.held names content hsaved
    cases he.symm.trans hfile
    rfl

def Listed (saved : Saved) (listed : List String) : Prop :=
  NameOrder.Ascending listed ∧ ∀ text, text ∈ listed ↔
    ∃ names content, saved names = some content ∧ text = Path.toString ⟨.here, names⟩

/-- The paths of the saved files, as a search for everything finds them. -/
theorem Kept.found (hfounded : Founded w t₀ top) (h : Kept w.base t₀ top t saved) :
    ∃ found files, Project.glob (w.site t) w.base "**/*" = .ok found ∧
      found.filterM (w.site t).isFile = .ok files ∧ files.Nodup ∧
      ∀ q, q ∈ files ↔ ∃ names content, q = w.base.under names ∧ saved names = some content := by
  classical
  have hlegible := h.legible hfounded
  obtain ⟨found, hfound, hnodup, hmem⟩ := hlegible.glob_everything
  let isSaved (q : Path) : Bool :=
    decide (∃ names content, q = w.base.under names ∧ saved names = some content)
  have hfile : ∀ q ∈ found, (w.site t).isFile q = .ok (isSaved q) := by
    intro q hq
    obtain ⟨names, e, -, rfl, he⟩ := (hmem q).mp hq
    rw [hlegible.isFile he, Except.ok.injEq, Bool.eq_iff_iff, decide_eq_true_iff, h.isFile_iff he]
    simp [Path.under_inj]
  refine ⟨found, found.filter isSaved, hfound, filterM_eq_ok hfile, hnodup.filter _, fun q => ?_⟩
  rw [List.mem_filter, decide_eq_true_iff]
  refine ⟨fun h => h.2, ?_⟩
  rintro ⟨names, content, rfl, hsaved⟩
  obtain ⟨x, he⟩ := h.held names content hsaved
  exact ⟨(hmem _).mpr ⟨names, _, h.ne_nil hsaved, rfl, he⟩, names, content, rfl, hsaved⟩

theorem Kept.exists_base (hfounded : Founded w t₀ top) (h : Kept w.base t₀ top t saved) :
    (w.site t).pathExists w.base = .ok true := by
  have hstat : (w.site t).stat w.base = .ok (top, .directory) :=
    statWithin_directory (h.stat hfounded)
  rw [Site.pathExists, Site.ask_of_stat hstat]
  rfl

/-- A work directory that is there lists what is saved. -/
theorem Kept.list (hfounded : Founded w t₀ top) (h : Kept w.base t₀ top t saved) :
    ∃ listed, w.list t = .ok listed ∧ Listed saved listed := by
  obtain ⟨found, files, hfound, hfiles, hnodup, hmem⟩ := h.found hfounded
  let text (p : Path) : String := ((p.relativeTo? w.base).getD p).toString
  have htext (names : List String) : text (w.base.under names) = Path.toString ⟨.here, names⟩ := by
    simp only [text, Path.relativeTo?_under, Option.getD_some]
  refine ⟨(files.map text).mergeSort Path.textLe, ?_, ⟨?_, fun name => ?_⟩⟩
  · rw [Workspace.list, bind_eq_ok]
    refine ⟨true, h.exists_base hfounded, ?_⟩
    rw [if_pos rfl, bind_eq_ok]
    exact ⟨found, hfound, bind_eq_ok.mpr ⟨files, hfiles, rfl⟩⟩
  · have hsorted := List.pairwise_mergeSort NameOrder.textLe_trans NameOrder.textLe_total
      (files.map text)
    have honce : (files.map text).Nodup := by
      refine List.Nodup.map_on (fun p hp q hq heq => ?_) hnodup
      obtain ⟨names, content, rfl, hsaved⟩ := (hmem p).mp hp
      obtain ⟨names', content', rfl, hsaved'⟩ := (hmem q).mp hq
      rw [htext, htext] at heq
      rw [Path.toString_inj (h.ne_nil hsaved) (h.ne_nil hsaved') (h.fits _ _ hsaved).2
        (h.fits _ _ hsaved').2 heq]
    exact hsorted.and ((List.mergeSort_perm ..).nodup_iff.mpr honce)
  · rw [List.mem_mergeSort, List.mem_map]
    constructor
    · rintro ⟨p, hp, rfl⟩
      obtain ⟨names, content, rfl, hsaved⟩ := (hmem p).mp hp
      exact ⟨names, content, hsaved, htext names⟩
    · rintro ⟨names, content, hsaved, rfl⟩
      exact ⟨_, (hmem _).mpr ⟨names, content, rfl, hsaved⟩, htext names⟩

/-- A missing work directory lists nothing. -/
theorem Gone.list (hfounded : Founded w t₀ top) (h : Gone t₀ top t saved) :
    w.list t = .ok [] ∧ w.isEmpty t = .ok true := by
  have hmissing : (w.site t).pathExists w.base = .ok false := by
    have hstat : (w.site t).stat w.base = .error .noEntry :=
      statWithin_nil_error (h.stat hfounded)
    rw [Site.pathExists, Site.ask, hstat]
    rfl
  constructor
  · rw [Workspace.list, bind_eq_ok]
    exact ⟨false, hmissing, rfl⟩
  · rw [Workspace.isEmpty, bind_eq_ok]
    exact ⟨false, hmissing, rfl⟩

theorem Listed.eq_nil_iff {listed : List String} (h : Listed saved listed) :
    listed = [] ↔ ∀ names, saved names = none := by
  rw [List.eq_nil_iff_forall_not_mem]
  constructor
  · intro hnone names
    rw [Option.eq_none_iff_forall_ne_some]
    exact fun content hsaved => hnone _ ((h.2 _).mpr ⟨names, content, hsaved, rfl⟩)
  · intro hnone text htext
    obtain ⟨names, content, hsaved, -⟩ := (h.2 text).mp htext
    cases (hnone names).symm.trans hsaved

theorem Kept.isEmpty (hfounded : Founded w t₀ top) (h : Kept w.base t₀ top t saved)
    {listed : List String} (hlisted : Listed saved listed) : w.isEmpty t = .ok listed.isEmpty := by
  have hroot : t.find? (top ++ []) = some .directory := by
    rw [List.append_nil, h.rooted.root]
  obtain ⟨found, hfound, hmem⟩ := (h.legible hfounded).entryNames hroot
  rw [Path.under_nil] at hfound
  have hempty : found.isEmpty = listed.isEmpty := by
    rw [Bool.eq_iff_iff, List.isEmpty_iff, List.isEmpty_iff, hlisted.eq_nil_iff,
      List.eq_nil_iff_forall_not_mem]
    constructor
    · intro hnone names
      rw [Option.eq_none_iff_forall_ne_some]
      intro content hsaved
      obtain ⟨name, rest, rfl⟩ := List.exists_cons_of_ne_nil (h.ne_nil hsaved)
      obtain ⟨x, he⟩ := h.held _ content hsaved
      rw [← List.singleton_append] at he
      exact hnone name ((hmem name).mpr (h.rooted.before he))
    · intro hnone name hname
      obtain ⟨e, he⟩ := (hmem name).mp hname
      obtain ⟨more, content, hsaved⟩ := h.leads (List.concat_ne_nil name []) he
      cases (hnone _).symm.trans hsaved
  rw [Workspace.isEmpty, bind_eq_ok]
  refine ⟨true, h.exists_base hfounded, ?_⟩
  rw [if_pos rfl, bind_eq_ok]
  exact ⟨found, hfound, congrArg _ hempty⟩

/-- What is saved is read back as it was saved. -/
theorem Kept.readOctets (hfounded : Founded w t₀ top) (h : Kept w.base t₀ top t saved)
    {names : List String} {content : String} (hsaved : saved names = some content) :
    t.readOctets w.cwd (w.base.under names) = .ok (Text.encodeUtf8 content) := by
  obtain ⟨x, he⟩ := h.held names content hsaved
  have hstat : t.stat w.cwd (w.base.under names) = .ok (top ++ names, _) :=
    (statWithin_eq_ok.mp ((h.legible hfounded).stat he)).1
  rw [FileTree.readOctets, hstat]

end Contents

/-- Whatever happened to a work directory, be it saving, cleaning, ensuring or its removal by
something else, it lists in order the files that were saved since it was last cleaned or removed,
and no other ones. Each has the content that was last saved to it, and the directory is empty
exactly when nothing is listed. A save that meets a file where a directory would have to be, or the
other way round, changes no file, and any operation that succeeds leaves the work directory
there. -/
theorem history_exact {w : Workspace} {t₀ : FileTree} {top : Location} {s : Stage}
    (hfounded : Founded w t₀ top) (hhistory : History w t₀ top s) :
    (∃ listed, w.list s.tree = .ok listed ∧ NameOrder.Ascending listed ∧
      (∀ text, text ∈ listed ↔ ∃ names content, s.saved names = some content ∧
        text = Path.toString ⟨.here, names⟩) ∧
      w.isEmpty s.tree = .ok listed.isEmpty) ∧
    (∀ names content, s.saved names = some content →
      s.tree.readOctets w.cwd (w.base.under names) = .ok (Text.encodeUtf8 content)) ∧
    (∀ language relative content f t, Path.IsName language → Path.Down relative →
      outcome (w.save language relative content) s.tree = (.error f, t) → Clash f →
      SameFiles s.tree t) ∧
    ∀ t, (∃ path, outcome w.ensure s.tree = (.ok path, t)) ∨
        outcome w.clean s.tree = (.ok (), t) ∨
        (∃ language relative content path, Path.IsName language ∧ Path.Down relative ∧
          outcome (w.save language relative content) s.tree = (.ok path, t)) →
      t.stat w.cwd w.base = .ok (top, .directory) := by
  have hsettled := hhistory.settled hfounded
  refine ⟨?_, ?_, ?_, ?_⟩
  · rcases hsettled with h | h
    · obtain ⟨listed, hlist, hlisted⟩ := h.list hfounded
      exact ⟨listed, hlist, hlisted.1, hlisted.2, h.isEmpty hfounded hlisted⟩
    · obtain ⟨hlist, hempty⟩ := h.list hfounded
      refine ⟨[], hlist, List.Pairwise.nil, fun text => ?_, hempty⟩
      simp [h.bare]
  · intro names content hsaved
    rcases hsettled with h | h
    · exact h.readOctets hfounded hsaved
    · cases (h.bare names).symm.trans hsaved
  · intro language relative content f t hlanguage hrelative houtcome hclash
    rcases save_settled hfounded hsettled hlanguage hrelative content with
      ⟨t', hsave, -⟩ | ⟨f', t', hsave, hsame⟩
    · cases houtcome.symm.trans hsave
    · cases houtcome.symm.trans hsave
      exact (hsame hclash).2
  · rintro t (⟨path, houtcome⟩ | houtcome |
      ⟨language, relative, content, path, hlanguage, hrelative, houtcome⟩)
    · rcases ensure_settled hfounded hsettled with ⟨t', hensure, hkept, -⟩ | ⟨f, hensure⟩
      · cases houtcome.symm.trans hensure
        exact hkept.stat hfounded
      · cases houtcome.symm.trans hensure
    · rcases clean_settled hfounded hsettled with ⟨t', hclean, hkept⟩ | ⟨f, hclean⟩
      · cases houtcome.symm.trans hclean
        exact hkept.stat hfounded
      · cases houtcome.symm.trans hclean
    · rcases save_settled hfounded hsettled hlanguage hrelative content with
        ⟨t', hsave, hkept⟩ | ⟨f, t', hsave, -⟩
      · cases houtcome.symm.trans hsave
        exact hkept.stat hfounded
      · cases houtcome.symm.trans hsave

private def shelf : Workspace := ⟨⟨.root, ["w"]⟩, []⟩

private def bareShelf : FileTree := ⟨[(["w"], .directory)]⟩

private def filledShelf : FileTree :=
  ⟨[(["w"], .directory), (["w", "c"], .directory), (["w", "c", "a"], .file [120] false)]⟩

private def refilledShelf : FileTree :=
  ⟨[(["w"], .directory), (["w", "d"], .directory), (["w", "d", "b"], .file [122] false)]⟩

private theorem shelf_founded : Founded shelf bareShelf ["w"] where
  there := by cbv
  bare names hnames := by
    obtain ⟨first, rest, rfl⟩ := List.exists_cons_of_ne_nil hnames
    simp [bareShelf, find?]
  named := by decide
  proper := by decide
  beside := ⟨[], by cbv⟩

/-- A file is saved, one that would have to be inside it is refused, something removes the work
directory, and another file is saved. -/
private theorem shelf_history : History shelf bareShelf ["w"]
    ⟨refilledShelf, Function.update (fun _ => none) ["d", "b"] (some "z")⟩ := by
  have hsave : outcome (shelf.save "c" ⟨.here, ["a"]⟩ "x") bareShelf =
      (.ok ⟨.root, ["w", "c", "a"]⟩, filledShelf) := by cbv
  have hrefuse : outcome (shelf.save "c" ⟨.here, ["a", "b"]⟩ "y") filledShelf =
      (.error (.workspaceFailed (.write ⟨.root, ["w", "c", "a", "b"]⟩
        (.at_ .entryExists "/w/c/a"))), filledShelf) := by cbv
  have hsave' : outcome (shelf.save "d" ⟨.here, ["b"]⟩ "z") (filledShelf.removeAll ["w"]) =
      (.ok ⟨.root, ["w", "d", "b"]⟩, refilledShelf) := by cbv
  have hfirst : Step shelf ["w"] ⟨bareShelf, fun _ => none⟩
      ⟨filledShelf, Function.update (fun _ => none) ["c", "a"] (some "x")⟩ :=
    @Step.saved shelf ["w"] ⟨bareShelf, _⟩ "c" ⟨.here, ["a"]⟩ _ "x" _ (by decide)
      ⟨rfl, by decide⟩ hsave
  have hsecond : Step shelf ["w"]
      ⟨filledShelf, Function.update (fun _ => none) ["c", "a"] (some "x")⟩
      ⟨filledShelf, Function.update (fun _ => none) ["c", "a"] (some "x")⟩ := by
    refine .refused ?_ ⟨rfl, ?_⟩ hrefuse (.write (.inl rfl)) <;> decide
  have hlast : Step shelf ["w"] ⟨filledShelf.removeAll ["w"], fun _ => none⟩
      ⟨refilledShelf, Function.update (fun _ => none) ["d", "b"] (some "z")⟩ :=
    @Step.saved shelf ["w"] ⟨_, _⟩ "d" ⟨.here, ["b"]⟩ _ "z" _ (by decide) ⟨rfl, by decide⟩ hsave'
  exact .tail (.tail (.tail (.single hfirst) hsecond) .removed) hlast

theorem history_exact_shelf :
    History shelf bareShelf ["w"]
        ⟨refilledShelf, Function.update (fun _ => none) ["d", "b"] (some "z")⟩ ∧
      shelf.list refilledShelf = .ok ["d/b"] ∧ shelf.isEmpty refilledShelf = .ok false ∧
      refilledShelf.readOctets [] ⟨.root, ["w", "d", "b"]⟩ = .ok (Text.encodeUtf8 "z") := by
  obtain ⟨⟨listed, hlist, hascending, hmem, hempty⟩, hread, -, -⟩ :=
    history_exact shelf_founded shelf_history
  have hsaved : Function.update (fun _ : List String => none) ["d", "b"] (some "z") ["d", "b"] =
      some "z" := Function.update_self ..
  have htext (text : String) : text ∈ listed ↔ text = "d/b" := by
    rw [hmem]
    constructor
    · rintro ⟨names, content, hnames, rfl⟩
      by_cases hother : names = ["d", "b"]
      · subst hother
        cbv
      · simp [Function.update_of_ne hother] at hnames
    · rintro rfl
      exact ⟨["d", "b"], "z", hsaved, by cbv⟩
  obtain rfl : listed = ["d/b"] := by
    have hnodup : listed.Nodup := hascending.imp And.right
    have hperm : listed.Perm ["d/b"] :=
      (List.perm_ext_iff_of_nodup hnodup (by simp)).mpr fun text => by simpa using htext text
    exact List.perm_singleton.mp hperm
  exact ⟨shelf_history, hlist, hempty, hread _ _ hsaved⟩

end SnippetRunner.Workspace
