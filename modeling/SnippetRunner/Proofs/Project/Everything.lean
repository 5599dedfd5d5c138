import Mathlib.Data.List.Basic
import SnippetRunner.Proofs.FileTree.Subtrees
import SnippetRunner.Proofs.Success
import SnippetRunner.Proofs.Text.NameOrder
import SnippetRunner.Project.Glob

/-!
The pattern for everything. Below a directory with nothing but directories and files in it, each
at a path that can be walked, it selects the path of each of them, once.
-/
namespace SnippetRunner.Project

open FileTree

/-- A directory with nothing barred, whose entries, near and far, all have paths that can be
walked. -/
structure Legible (s : Site) (base : Path) (top : Location) : Prop where
  bars : s.bars = {}
  rooted : Rooted s.tree top
  there : s.stat base = .ok (top, .directory)
  fits : ∀ names e, s.tree.find? (top ++ names) = some e → Fits base names

variable {s : Site} {base : Path} {top : Location} {names : List String} {name : String}

theorem Legible.stat (h : Legible s base top) {e : Entry}
    (he : s.tree.find? (top ++ names) = some e) :
    s.stat (base.under names) = .ok (top ++ names, e) := by
  have hbase := h.there
  rw [Site.stat, h.bars] at hbase ⊢
  exact statWithin_below h.rooted hbase (h.fits names e he) he

theorem Legible.isFile (h : Legible s base top) {e : Entry}
    (he : s.tree.find? (top ++ names) = some e) :
    s.isFile (base.under names) = .ok (isFileEntry e) := by
  rw [Site.isFile, Site.ask_of_stat (h.stat he)]
  rfl

theorem Legible.listNames (h : Legible s base top)
    (hdir : s.tree.find? (top ++ names) = some .directory) :
    ∃ found, s.listNames (base.under names) = .ok found ∧
      ∀ name, name ∈ found ↔ ∃ e, s.tree.find? (top ++ (names ++ [name])) = some e := by
  refine ⟨(s.tree.children (top ++ names)).map (·.1), ?_, fun name => ?_⟩
  · simp [Site.listNames, h.stat hdir, h.bars]
  · rw [mem_children_names, List.append_assoc]

theorem Legible.entryNames (h : Legible s base top)
    (hdir : s.tree.find? (top ++ names) = some .directory) :
    ∃ found, entryNames s (base.under names) = .ok found ∧
      ∀ name, name ∈ found ↔ ∃ e, s.tree.find? (top ++ (names ++ [name])) = some e := by
  obtain ⟨found, hfound, hmem⟩ := h.listNames hdir
  exact ⟨found, by rw [Project.entryNames, hfound]; rfl, hmem⟩

/-- The entries of a directory are met by their paths. -/
theorem Legible.scan (h : Legible s base top)
    (hdir : s.tree.find? (top ++ names) = some .directory) :
    ∃ entries, scan s (base.under names) = .ok entries ∧
      ∀ q, q ∈ entries ↔ ∃ name e, q = base.under (names ++ [name]) ∧
        s.tree.find? (top ++ (names ++ [name])) = some e := by
  obtain ⟨found, hfound, hmem⟩ := h.listNames hdir
  refine ⟨found.map (base.under names).entry, by rw [Project.scan, hfound], fun q => ?_⟩
  rw [List.mem_map]
  constructor
  · rintro ⟨name, hname, rfl⟩
    obtain ⟨e, he⟩ := (hmem name).mp hname
    exact ⟨name, e, Path.under_entry .., he⟩
  · rintro ⟨name, e, rfl, he⟩
    exact ⟨name, (hmem name).mpr ⟨e, he⟩, Path.under_entry ..⟩

theorem Legible.listedAs (h : Legible s base top) {e : Entry}
    (he : s.tree.find? (top ++ (names ++ [name])) = some e) :
    s.listedAs (base.under (names ++ [name])) = some e := by
  have hstat : FileTree.stat s.tree s.cwd base = .ok (top, .directory) :=
    (statWithin_eq_ok.mp h.there).1
  have hfollow : names ++ [name] = [] → false = true := fun h => absurd h (by simp)
  have hwalk := walk_ok (walk_below h.rooted hstat (h.fits _ _ he) hfollow he)
  rw [Site.listedAs, hwalk]

/-- The directories in a directory are those of its entries that are listed as such. -/
theorem Legible.mem_directories (h : Legible s base top) {entries : List Path}
    (hentry : ∀ q, q ∈ entries ↔ ∃ name e, q = base.under (names ++ [name]) ∧
      s.tree.find? (top ++ (names ++ [name])) = some e) {q : Path} :
    q ∈ entries.filter (fun entry => s.listedAs entry == some .directory) ↔
      ∃ name, q = base.under (names ++ [name]) ∧
        s.tree.find? (top ++ (names ++ [name])) = some .directory := by
  rw [List.mem_filter, hentry]
  constructor
  · rintro ⟨⟨name, e, rfl, he⟩, hlisted⟩
    rw [h.listedAs he, beq_iff_eq] at hlisted
    exact ⟨name, rfl, he.trans hlisted⟩
  · rintro ⟨name, rfl, he⟩
    exact ⟨⟨name, _, rfl, he⟩, by rw [h.listedAs he, beq_self_eq_true]⟩

section Below

variable {select : Path → Except Failure (List Path)} {Selects : List String → Path → Prop}
  {fuel : Nat}

/-- Some paths are selected at a directory or at one below it, and they are all that is selected
at those not too far down. -/
structure SelectedBelow (s : Site) (top : Location) (Selects : List String → Path → Prop)
    (fuel : Nat) (names : List String) (found : List Path) : Prop where
  only : ∀ q ∈ found, ∃ more, s.tree.find? (top ++ (names ++ more)) = some .directory ∧
    Selects (names ++ more) q
  all : ∀ more q, more.length ≤ fuel → s.tree.find? (top ++ (names ++ more)) = some .directory →
    Selects (names ++ more) q → q ∈ found

theorem selectedBelow_here {here : List Path} (hmem : ∀ q, q ∈ here ↔ Selects names q)
    (hdir : s.tree.find? (top ++ names) = some .directory) :
    SelectedBelow s top Selects 0 names here where
  only q hq := ⟨[], by rwa [List.append_nil], by rw [List.append_nil]; exact (hmem q).mp hq⟩
  all more q hmore _ hq := by
    rw [List.length_eq_zero_iff.mp (Nat.le_zero.mp hmore), List.append_nil] at hq
    exact (hmem q).mpr hq

/-- What a directory selects together with what those in it come to. -/
theorem SelectedBelow.append {here : List Path} {parts : List (List Path)}
    (hrooted : Rooted s.tree top) (hhere : SelectedBelow s top Selects 0 names here)
    (hfrom : ∀ part ∈ parts, ∃ name, SelectedBelow s top Selects fuel (names ++ [name]) part)
    (hto : ∀ name, s.tree.find? (top ++ (names ++ [name])) = some .directory →
      ∃ part ∈ parts, SelectedBelow s top Selects fuel (names ++ [name]) part) :
    SelectedBelow s top Selects (fuel + 1) names (here ++ parts.flatten) where
  only q hq := by
    rcases List.mem_append.mp hq with hq | hq
    · exact hhere.only q hq
    · obtain ⟨part, hpart, hq⟩ := List.mem_flatten.mp hq
      obtain ⟨name, hbelow⟩ := hfrom part hpart
      obtain ⟨more, he, hselects⟩ := hbelow.only q hq
      rw [List.append_assoc] at he hselects
      exact ⟨[name] ++ more, he, hselects⟩
  all more q hmore he hq := by
    cases more with
    | nil => exact List.mem_append_left _ (hhere.all [] q (Nat.le_refl 0) he hq)
    | cons name rest =>
      rw [List.append_cons] at he hq
      have hname : s.tree.find? (top ++ (names ++ [name])) = some .directory := by
        by_cases hrest : rest = []
        · rwa [hrest, List.append_nil] at he
        · exact hrooted.inner hrest he
      obtain ⟨part, hpart, hbelow⟩ := hto name hname
      refine List.mem_append_right _ (List.mem_flatten.mpr ⟨part, hpart, ?_⟩)
      exact hbelow.all rest q (Nat.le_of_succ_le_succ hmore) he hq

/-- Goes on from each directory by what it selects there, as far down as it may. -/
theorem Legible.selectBelow (h : Legible s base top)
    (hselect : ∀ names, s.tree.find? (top ++ names) = some .directory →
      ∃ found, select (base.under names) = .ok found ∧ ∀ q, q ∈ found ↔ Selects names q)
    (fuel : Nat) (hdir : s.tree.find? (top ++ names) = some .directory) :
    ∃ found, selectBelow s select fuel (base.under names) = .ok found ∧
      SelectedBelow s top Selects fuel names found := by
  induction fuel generalizing names with
  | zero =>
    obtain ⟨found, hfound, hmem⟩ := hselect names hdir
    exact ⟨found, hfound, selectedBelow_here hmem hdir⟩
  | succ fuel ih =>
    obtain ⟨here, hhere, hmem⟩ := hselect names hdir
    obtain ⟨entries, hentries, hentry⟩ := h.scan hdir
    have hnext : ∀ q ∈ entries.filter (fun entry => s.listedAs entry == some .directory),
        ∃ found, Project.selectBelow s select fuel q = .ok found ∧ ∃ name,
          q = base.under (names ++ [name]) ∧
            SelectedBelow s top Selects fuel (names ++ [name]) found := by
      intro q hq
      obtain ⟨name, rfl, he⟩ := (h.mem_directories hentry).mp hq
      obtain ⟨found, hfound, hbelow⟩ := ih he
      exact ⟨found, hfound, name, rfl, hbelow⟩
    obtain ⟨parts, hparts, hfrom, hto⟩ := Success.mapM_exists hnext
    refine ⟨here ++ parts.flatten, ?_, (selectedBelow_here hmem hdir).append h.rooted ?_ ?_⟩
    · rw [Project.selectBelow, Success.bind_eq_ok]
      exact ⟨here, hhere, Success.bind_eq_ok.mpr
        ⟨entries, hentries, Success.bind_eq_ok.mpr ⟨parts, hparts, rfl⟩⟩⟩
    · intro part hpart
      obtain ⟨-, -, name, -, hbelow⟩ := hfrom part hpart
      exact ⟨name, hbelow⟩
    · intro name hname
      obtain ⟨part, hpart, name', heq, hbelow⟩ :=
        hto _ ((h.mem_directories hentry).mpr ⟨name, rfl, hname⟩)
      obtain rfl : name = name' :=
        List.singleton_injective (List.append_cancel_left (Path.under_inj.mp heq))
      exact ⟨part, hpart, hbelow⟩

end Below

theorem matchesItems_any (cs : List Char) : Text.matchesItems [.any] cs = true := by
  rw [Text.matchesItems]
  induction cs with
  | nil => simp [Text.matchesItems.matchesTails, Text.matchesItems]
  | cons c cs ih => rw [Text.matchesItems.matchesTails, ih, Bool.or_true]

theorem matchesWildcard_star (name : String) : Text.matchesWildcard "*" name = true := by
  have hitems : Text.wildcardItems "*" = [.any] := rfl
  rw [Text.matchesWildcard, hitems]
  exact matchesItems_any name.toList

theorem selectAmong_all (s : Site) {fits : String → Bool} (hfits : ∀ name, fits name = true)
    (entries : List Path) : selectAmong s false fits (fun q => .ok [q]) entries = .ok entries := by
  induction entries with
  | nil => rfl
  | cons entry rest ih => simp [selectAmong, hfits, ih, bind, Except.bind, pure, Except.pure]

/-- The star selects whatever is in a directory. -/
theorem Legible.selectPaths_star (h : Legible s base top)
    (hdir : s.tree.find? (top ++ names) = some .directory) :
    ∃ found, selectPaths s false [.wildcard "*"] (base.under names) = .ok found ∧
      ∀ q, q ∈ found ↔ ∃ name e, q = base.under (names ++ [name]) ∧
        s.tree.find? (top ++ (names ++ [name])) = some e := by
  obtain ⟨entries, hentries, hmem⟩ := h.scan hdir
  refine ⟨entries, ?_, hmem⟩
  rw [selectPaths, Success.bind_eq_ok]
  exact ⟨entries, hentries, selectAmong_all s matchesWildcard_star entries⟩

/-- The pattern for everything selects the paths of all entries, each once. -/
theorem Legible.glob_everything (h : Legible s base top) :
    ∃ found, glob s base "**/*" = .ok found ∧ found.Nodup ∧
      ∀ q, q ∈ found ↔ ∃ names e, names ≠ [] ∧ q = base.under names ∧
        s.tree.find? (top ++ names) = some e := by
  have hroot : s.tree.find? (top ++ []) = some .directory := by
    rw [List.append_nil, h.rooted.root]
  have hparts : globParts "**/*" = .ok ([.anyDepth, .wildcard "*"], false) := by decide +kernel
  have hthere : s.isDirectory base = .ok true := by
    rw [Site.isDirectory, Site.ask_of_stat h.there]
    rfl
  obtain ⟨found, hfound, hbelow⟩ :=
    h.selectBelow (fun _ => h.selectPaths_star) s.tree.entries.length hroot
  refine ⟨found.eraseDups, ?_, NameOrder.nodup_eraseDups _, fun q => ?_⟩
  · rw [Path.under_nil] at hfound
    rw [glob, Success.bind_eq_ok]
    refine ⟨([.anyDepth, .wildcard "*"], false), by rw [hparts]; rfl, ?_⟩
    rw [Success.bind_eq_ok]
    refine ⟨true, hthere, ?_⟩
    rw [if_pos rfl, selectPaths, Success.bind_eq_ok]
    exact ⟨found, hfound, rfl⟩
  · rw [List.mem_eraseDups]
    constructor
    · intro hq
      obtain ⟨more, -, name, e, rfl, he⟩ := hbelow.only q hq
      exact ⟨_, e, List.concat_ne_nil name _, rfl, he⟩
    · rintro ⟨names, e, hne, rfl, he⟩
      obtain ⟨front, last, rfl⟩ : ∃ front last, names = front ++ [last] :=
        ⟨_, _, (List.dropLast_concat_getLast hne).symm⟩
      have hfront := h.rooted.closed front last e he
      exact hbelow.all front _ (h.rooted.depth_le hfront) hfront ⟨last, e, rfl, he⟩

end SnippetRunner.Project
