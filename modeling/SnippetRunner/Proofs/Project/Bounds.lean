import Mathlib
import SnippetRunner.Proofs.Project.Discovery
import SnippetRunner.Proofs.Text.NameOrder
import SnippetRunner.Proofs.Text.PathNames

/-!
How the listing of the files of a project depends on its bounds. The directories that a search
goes down into stand in levels, each by its directories in order, and the full listing is that of
the sources of all levels down to a depth. A search that is not stopped gives the first ones of it,
so that larger bounds only add at the end; and a search that larger bounds do not stop is not
stopped by smaller ones either.
-/
namespace SnippetRunner.Project

variable {s : Site} {search : Search} {root : Path} {maxDepth maxFiles : Nat}

section Levels

variable {directories : List Path}

def levelBelow (s : Site) (directories : List Path) : Nat → List Path
  | 0 => directories
  | depth + 1 => ((levelBelow s directories depth).flatMap (entriesOf s)).filter (descends s)

/-- A directory that is so many steps below a root. Links to directories and directories that lead
back to themselves are steps like any others. -/
inductive Reaches (s : Site) (root : Path) : Nat → Path → Prop
  | here : Reaches s root 0 root
  | down {depth : Nat} {directory entry : Path} : Reaches s root depth directory →
      entry ∈ entriesOf s directory → descends s entry = true → Reaches s root (depth + 1) entry

/-- The sources in all directories down to a depth, level by level. -/
def listing (s : Site) (search : Search) (root : Path) (maxDepth : Nat) : List Path :=
  (List.range (maxDepth + 1)).flatMap fun depth =>
    (levelBelow s [root] depth).flatMap fun directory =>
      (entriesOf s directory).filter (isSource s search)

theorem levelBelow_succ (depth : Nat) :
    levelBelow s directories (depth + 1) =
      levelBelow s ((directories.flatMap (entriesOf s)).filter (descends s)) depth := by
  induction depth with
  | zero => rfl
  | succ depth ih => rw [levelBelow, ih, levelBelow]

theorem discovery_eq_levels (levels : Nat) (directories : List Path) :
    discovery s levels directories = (List.range levels).flatMap fun depth =>
      (levelBelow s directories depth).flatMap (entriesOf s) := by
  induction levels generalizing directories with
  | zero => rfl
  | succ levels ih =>
    rw [discovery, ih, List.range_succ_eq_map, List.flatMap_cons, List.flatMap_map]
    simp only [levelBelow_succ]
    rfl

theorem mem_levelBelow {depth : Nat} {directory : Path} :
    directory ∈ levelBelow s [root] depth ↔ Reaches s root depth directory := by
  induction depth generalizing directory with
  | zero =>
    rw [levelBelow, List.mem_singleton]
    constructor
    · rintro rfl
      exact .here
    · intro h
      cases h
      rfl
  | succ depth ih =>
    rw [levelBelow, List.mem_filter, List.mem_flatMap]
    constructor
    · rintro ⟨⟨above, habove, hentry⟩, hdescends⟩
      exact .down (ih.mp habove) hentry hdescends
    · intro h
      cases h with
      | down habove hentry hdescends => exact ⟨⟨_, ih.mpr habove, hentry⟩, hdescends⟩

theorem filter_discovery :
    (discovery s (maxDepth + 1) [root]).filter (isSource s search) =
      listing s search root maxDepth := by
  simp only [discovery_eq_levels, listing, List.filter_flatMap]

theorem mem_listing {p : Path} :
    p ∈ listing s search root maxDepth ↔
      ∃ depth ≤ maxDepth, ∃ directory, Reaches s root depth directory ∧
        p ∈ entriesOf s directory ∧ isSource s search p = true := by
  simp only [listing, List.mem_flatMap, List.mem_range, List.mem_filter, mem_levelBelow,
    Nat.lt_succ_iff]

/-- A deeper search goes on after the entries of the one less deep. -/
theorem discovery_front {levels levels' : Nat} (h : levels ≤ levels') (directories : List Path) :
    discovery s levels directories <+: discovery s levels' directories := by
  obtain ⟨more, rfl⟩ := Nat.exists_eq_add_of_le h
  simp only [discovery_eq_levels, List.range_add, List.flatMap_append]
  exact List.prefix_append _ _

@[simp] theorem name_entry (directory : Path) (name : String) :
    (directory.entry name).name = name := by
  simp [Path.entry, Path.name]

theorem eq_entry_of_mem {directory entry : Path} (h : entry ∈ entriesOf s directory) :
    ∃ name, entry = directory.entry name := by
  unfold entriesOf at h
  split at h
  · obtain ⟨name, -, rfl⟩ := List.mem_map.mp h
    exact ⟨name, rfl⟩
  · cases h

/-- The entries of a directory come in the order of their names. -/
theorem entriesOf_sorted (s : Site) (directory : Path) :
    ((entriesOf s directory).map Path.name).Pairwise fun a b => Path.textLe a b := by
  unfold entriesOf
  split
  · rename_i names _
    have hnames : (fun name => (directory.entry name).name) = id := funext (name_entry directory)
    rw [List.map_map, Function.comp_def, hnames, List.map_id]
    exact List.pairwise_mergeSort NameOrder.textLe_trans NameOrder.textLe_total names
  · exact .nil

end Levels

section Bounds

variable {extension : String} {exclude : Option Path} {f : Failure}

/-- The real path of the file that is left out, if there is one to leave out. -/
def leftOut (s : Site) : Option Path → Except Failure (Option Path)
  | some p => (s.resolve p).map some
  | none => .ok none

theorem sourceFiles_eq_bind (maxDepth maxFiles : Int) :
    sourceFiles s root extension maxDepth maxFiles exclude = (do
      let excluded ← leftOut s exclude
      scanLevels s ⟨extension, excluded⟩ (maxDepth.toNat + 1) maxFiles.toNat [root]) := by
  cases exclude <;> rfl

/-- A search that is not stopped gives the first sources of the listing. -/
theorem scanLevels_eq_ok {files : List Path} :
    scanLevels s search (maxDepth + 1) maxFiles [root] = .ok files ↔
      (∀ f, ¬ Stopped s search root (maxDepth + 1) maxFiles f) ∧
        files = (listing s search root maxDepth).take maxFiles := by
  have hfirst : ∀ files, scanLevels s search (maxDepth + 1) maxFiles [root] = .ok files →
      files = (listing s search root maxDepth).take maxFiles := by
    intro files h
    cases hnul : root.hasNul with
    | false =>
      rw [scanLevels_eq (by simpa using hnul)] at h
      obtain ⟨found, hfound, rfl⟩ := Success.map_eq_ok.mp h
      rw [(scanEntries_ok hfound).1, filter_discovery]
    | true =>
      cases maxFiles with
      | zero =>
        cases h
        rfl
      | succ room =>
        have hstopped := scanLevels_eq_error.mpr
          (Or.inl ⟨hnul, Nat.succ_pos room, rfl⟩ : Stopped s search root (maxDepth + 1) _ _)
        cases h.symm.trans hstopped
  constructor
  · intro h
    refine ⟨fun f hf => ?_, hfirst files h⟩
    cases h.symm.trans (scanLevels_eq_error.mpr hf)
  · rintro ⟨hfree, rfl⟩
    cases hscan : scanLevels s search (maxDepth + 1) maxFiles [root] with
    | error f => exact absurd (scanLevels_eq_error.mp hscan) (hfree f)
    | ok files => rw [hfirst files hscan]

/-- What stops a search stops every search with larger bounds. -/
theorem Stopped.mono {maxDepth' maxFiles' : Nat} (hdepth : maxDepth ≤ maxDepth')
    (hfiles : maxFiles ≤ maxFiles') (h : Stopped s search root (maxDepth + 1) maxFiles f) :
    Stopped s search root (maxDepth' + 1) maxFiles' f := by
  rcases h with ⟨hnul, hroom, rfl⟩ | ⟨hnul, before, entry, after, heq, hpassed, hroom, hstop⟩
  · exact Or.inl ⟨hnul, by omega, rfl⟩
  · obtain ⟨more, hmore⟩ := discovery_front (s := s) (Nat.succ_le_succ hdepth) [root]
    refine Or.inr ⟨hnul, before, entry, after ++ more, ?_, hpassed, by omega, hstop⟩
    rw [← hmore, heq, List.append_assoc, List.cons_append]

theorem listing_prefix {maxDepth' : Nat} (h : maxDepth ≤ maxDepth') :
    listing s search root maxDepth <+: listing s search root maxDepth' := by
  rw [← filter_discovery, ← filter_discovery]
  exact (discovery_front (Nat.succ_le_succ h) [root]).filter _

/-- The first ones of a list are the first of those of a longer list, if there may be more. -/
theorem listing_take_prefix {maxDepth' maxFiles' : Nat} (hdepth : maxDepth ≤ maxDepth')
    (hfiles : maxFiles ≤ maxFiles') :
    (listing s search root maxDepth).take maxFiles <+:
      (listing s search root maxDepth').take maxFiles' := by
  obtain ⟨more, hmore⟩ : listing s search root maxDepth <+: listing s search root maxDepth' :=
    listing_prefix hdepth
  rw [← hmore, List.take_append]
  exact (List.take_prefix_take_left hfiles).trans (List.prefix_append _ _)

/-- No name on the way from a root to a directory that is reached is hidden. -/
theorem Reaches.names {depth : Nat} {directory : Path} (h : Reaches s root depth directory) :
    ∃ names, (∀ n ∈ names, isHidden n = false) ∧
      directory = ⟨root.anchor, root.parts ++ names⟩ := by
  induction h with
  | here => exact ⟨[], by simp, by simp⟩
  | @down depth directory entry _ hentry hdescends ih =>
    obtain ⟨names, hnames, rfl⟩ := ih
    obtain ⟨name, rfl⟩ := eq_entry_of_mem hentry
    have hname : isHidden name = false := by
      simp only [descends, name_entry, Bool.and_eq_true, Bool.not_eq_true'] at hdescends
      exact hdescends.1.1
    refine ⟨names ++ [name], ?_, by simp [Path.entry]⟩
    intro n hn
    rcases List.mem_append.mp hn with hn | hn
    · exact hnames n hn
    · exact List.mem_singleton.mp hn ▸ hname

/-- A file that is found has a path down from the root, by names that are not hidden. -/
theorem sourceFiles_names {maxDepth maxFiles : Int} {files : List Path}
    (h : sourceFiles s root extension maxDepth maxFiles exclude = .ok files) :
    ∀ p ∈ files, ∃ names, names ≠ [] ∧ (∀ n ∈ names, isHidden n = false) ∧
      p = ⟨root.anchor, root.parts ++ names⟩ := by
  rw [sourceFiles_eq_bind, Success.bind_eq_ok] at h
  obtain ⟨excluded, -, h⟩ := h
  obtain ⟨-, rfl⟩ := scanLevels_eq_ok.mp h
  intro p hp
  obtain ⟨depth, -, directory, hreaches, hentry, hsource⟩ :=
    mem_listing.mp (List.mem_of_mem_take hp)
  obtain ⟨names, hnames, rfl⟩ := hreaches.names
  obtain ⟨name, rfl⟩ := eq_entry_of_mem hentry
  have hname : isHidden name = false := by
    simp only [isSource, name_entry, Bool.and_eq_true, Bool.not_eq_true'] at hsource
    exact hsource.1.1.1
  refine ⟨names ++ [name], by simp, ?_, by simp [Path.entry]⟩
  intro n hn
  rcases List.mem_append.mp hn with hn | hn
  · exact hnames n hn
  · exact List.mem_singleton.mp hn ▸ hname

/-- The bounds of a search only cut its listing off. A search for the files of a project gives the
first files, as many as it may, of the listing down to its depth, exactly when the file that is
left out has a real path and nothing stops the search. The listing holds the sources of all
directories that are reached by so many steps, level by level, and within a directory by name.
With larger bounds a search only finds more after what it finds with smaller ones. -/
theorem sourceFiles_bounded (s : Site) (root : Path) (extension : String)
    (exclude : Option Path) :
    (∀ (maxDepth maxFiles : Nat) files,
      sourceFiles s root extension maxDepth maxFiles exclude = .ok files ↔
        ∃ excluded, leftOut s exclude = .ok excluded ∧
          (∀ f, ¬ Stopped s ⟨extension, excluded⟩ root (maxDepth + 1) maxFiles f) ∧
          files = (listing s ⟨extension, excluded⟩ root maxDepth).take maxFiles) ∧
      (∀ search maxDepth p, p ∈ listing s search root maxDepth ↔
        ∃ depth ≤ maxDepth, ∃ directory, Reaches s root depth directory ∧
          p ∈ entriesOf s directory ∧ isSource s search p = true) ∧
      (∀ directory,
        ((entriesOf s directory).map Path.name).Pairwise fun a b => Path.textLe a b) ∧
      ∀ (maxDepth maxDepth' maxFiles maxFiles' : Nat) files',
        maxDepth ≤ maxDepth' → maxFiles ≤ maxFiles' →
          sourceFiles s root extension maxDepth' maxFiles' exclude = .ok files' →
            ∃ files, sourceFiles s root extension maxDepth maxFiles exclude = .ok files ∧
              files <+: files' := by
  have hok : ∀ (maxDepth maxFiles : Nat) files,
      sourceFiles s root extension maxDepth maxFiles exclude = .ok files ↔
        ∃ excluded, leftOut s exclude = .ok excluded ∧
          (∀ f, ¬ Stopped s ⟨extension, excluded⟩ root (maxDepth + 1) maxFiles f) ∧
          files = (listing s ⟨extension, excluded⟩ root maxDepth).take maxFiles := by
    intro maxDepth maxFiles files
    simp only [sourceFiles_eq_bind, Int.toNat_natCast, Success.bind_eq_ok, scanLevels_eq_ok]
  refine ⟨hok, fun _ _ _ => mem_listing, entriesOf_sorted s, ?_⟩
  intro maxDepth maxDepth' maxFiles maxFiles' files' hdepth hfiles h
  obtain ⟨excluded, hexcluded, hfree, rfl⟩ := (hok ..).mp h
  exact ⟨_, (hok ..).mpr ⟨excluded, hexcluded, fun f hf => hfree f (hf.mono hdepth hfiles), rfl⟩,
    listing_take_prefix hdepth hfiles⟩

private def besideLink (target : String) : Site :=
  ⟨⟨[(["a.py"], .file [] false), (["b.py"], .file [] false), (["m"], .link target)]⟩, [], [], {}⟩

private def longName (size : Nat) : String :=
  String.ofList (List.replicate size 'n')

private theorem besideLink_unseen (size : Nat) (hsize : 255 < size) :
    Unseen (besideLink (longName size)) ⟨.root, ["m"]⟩
      (.ofFile ⟨.root, ["m"]⟩ .nameTooLong) := by
  have hoctets : FileTree.maxNameOctets < (longName size).utf8ByteSize := by
    have hlen : ∀ n, String.utf8Len (List.replicate n 'n') = n := by
      intro n
      induction n with
      | zero => rfl
      | succ n ih => rw [List.replicate_succ, String.utf8Len_cons, ih]; rfl
    rw [longName, String.utf8ByteSize_ofList, hlen]
    exact hsize
  have hslash : '/' ∉ (longName size).toList := by simp [longName]
  have hother : ∀ short : String, short.utf8ByteSize ≤ FileTree.maxNameOctets →
      longName size ≠ short := by
    rintro short hshort rfl
    omega
  have hempty := hother "" (by decide)
  have hparts := Path.partsOf_of_no_slash hslash hempty (hother "." (by decide))
  have habove := hother ".." (by decide)
  have hwalk : (besideLink (longName size)).tree.walkFrom true FileTree.linkBudget [] ["m"] =
      .error .nameTooLong := by
    rw [FileTree.linkBudget, FileTree.walkFrom_target (fun _ => rfl) rfl (by decide) (by decide)
      rfl hempty, hparts, List.append_nil, FileTree.walkFrom]
    simp [FileTree.find?, FileTree.targetStart, habove, hoctets]
  have hshort : FileTree.walk (besideLink (longName size)).tree [] true ⟨.root, ["m"]⟩ =
      (besideLink (longName size)).tree.walkFrom true FileTree.linkBudget [] ["m"] :=
    rfl
  have hstat : FileTree.stat (besideLink (longName size)).tree [] ⟨.root, ["m"]⟩ =
      .error .nameTooLong := by
    rw [FileTree.stat, hshort, hwalk]
  exact ⟨.nameTooLong, .inl rfl, FileTree.statWithin_nil_error hstat, rfl⟩

private theorem besideLink_scanEntry (target name : String) (hname : name ∈ ["a.py", "b.py"]) :
    scanEntry (besideLink target) ⟨".py", none⟩ ⟨.root, [name]⟩ =
      .ok ⟨[⟨.root, [name]⟩], []⟩ := by
  have hstat : (besideLink target).stat ⟨.root, [name]⟩ = .ok ([name], .file [] false) := by
    fin_cases hname <;> cbv
  have hreal : (besideLink target).resolve ⟨.root, [name]⟩ = .ok ⟨.root, [name]⟩ := by
    have h := FileTree.resolve_of_statWithin .top hstat
    exact congrArg (Except.mapError Failure.ofResolve) h
  have hdirectory : (besideLink target).isDirectory ⟨.root, [name]⟩ = .ok false := by
    rw [Site.isDirectory, Site.ask_of_stat hstat]
    rfl
  have hname : isHidden name = false ∧ Path.suffixOf name = ".py" := by
    fin_cases hname <;> exact ⟨by cbv, by cbv⟩
  simp [scanEntry, Path.name, Path.suffix, hname, hdirectory, hreal, bind, Except.bind, pure,
    Except.pure]

theorem sourceFiles_bounded_longLink :
    sourceFiles (besideLink (longName 256)) ⟨.root, []⟩ ".py" 0 2 none =
        .ok [⟨.root, ["a.py"]⟩, ⟨.root, ["b.py"]⟩] ∧
      (∀ files, sourceFiles (besideLink (longName 256)) ⟨.root, []⟩ ".py" 0 10 none ≠
        .ok files) ∧
      ∃ files, sourceFiles (besideLink (longName 256)) ⟨.root, []⟩ ".py" 0 1 none = .ok files ∧
        files <+: [⟨.root, ["a.py"]⟩, ⟨.root, ["b.py"]⟩] := by
  have hlong := isDirectory_eq_error.mpr (besideLink_unseen 256 (by decide))
  generalize longName 256 = target at *
  have hsorted : sortedEntries (besideLink target) ⟨.root, []⟩ =
      .ok [⟨.root, ["a.py"]⟩, ⟨.root, ["b.py"]⟩, ⟨.root, ["m"]⟩] := by cbv
  have ha := besideLink_scanEntry target "a.py" (by simp)
  have hb := besideLink_scanEntry target "b.py" (by simp)
  have hm : scanEntry (besideLink target) ⟨".py", none⟩ ⟨.root, ["m"]⟩ =
      .error (.ofFile ⟨.root, ["m"]⟩ .nameTooLong) := by
    have hhidden : isHidden "m" = false := by cbv
    simp [scanEntry, Path.name, hhidden, hlong, bind, Except.bind]
  have htwo : sourceFiles (besideLink target) ⟨.root, []⟩ ".py" 0 2 none =
      .ok [⟨.root, ["a.py"]⟩, ⟨.root, ["b.py"]⟩] := by
    simp [sourceFiles, scanLevels, scanLevel, scanEntries, hsorted, ha, hb, Harvest.append,
      Harvest.none, bind, Except.bind, pure, Except.pure]
  have hstopped : Stopped (besideLink target) ⟨".py", none⟩ ⟨.root, []⟩ (0 + 1) 10
      (.ofFile ⟨.root, ["m"]⟩ .nameTooLong) := by
    rw [← scanLevels_eq_error]
    simp [scanLevels, scanLevel, scanEntries, hsorted, ha, hb, hm, bind, Except.bind]
  obtain ⟨hok, -, -, hfront⟩ :=
    sourceFiles_bounded (besideLink target) ⟨.root, []⟩ ".py" none
  refine ⟨htwo, ?_, hfront 0 0 1 2 _ (Nat.le_refl 0) (by decide) htwo⟩
  intro files h
  obtain ⟨excluded, hexcluded, hfree, -⟩ := (hok 0 10 files).mp h
  cases hexcluded
  exact hfree _ hstopped

end Bounds

end SnippetRunner.Project
