import Mathlib
import SnippetRunner.Proofs.FileTree.Subtrees
import SnippetRunner.Proofs.Project.Obstacles
import SnippetRunner.Proofs.Text.NameOrder

/-!
Which libraries are listed. The searches are made one after the other: for each pattern below the
root, then in each directory of the system. Unless one of them is stopped, the list holds exactly
the regular files that they lead to, each once and by its own place, in the order in which they are
met.
-/
namespace SnippetRunner.Project

open FileTree

def NamesFile (s : Site) (p real : Path) : Prop :=
  ∃ loc octets executable, s.stat p = .ok (loc, .file octets executable) ∧ real = pathOf loc

def InProject (s : Site) (root : Option Path) (globs : List String) (p : Path) : Prop :=
  ∃ r pattern paths, root = some r ∧ pattern ∈ globs ∧ glob s r pattern = .ok paths ∧ p ∈ paths

/-- A path is that of an entry of a system directory, which may be read, and has the suffix of a
pattern. -/
def InSystem (s : Site) (globs : List String) (systemDirs : List Path) (p : Path) : Prop :=
  ∃ directory loc name e, directory ∈ systemDirs ∧
    s.stat directory = .ok (loc, .directory) ∧ loc ∉ s.bars.read ∧
    s.tree.find? (loc ++ [name]) = some e ∧ p = directory.entry name ∧
    p.suffix ≠ "" ∧ ∃ pattern ∈ globs, (Path.ofString pattern).suffix = p.suffix

def FoundBy (s : Site) (root : Option Path) (globs : List String) (systemDirs : List Path)
    (search : Nat) (p : Path) : Prop :=
  ∃ paths, (libraryBatches s root globs systemDirs)[search]? = some (.ok paths) ∧ p ∈ paths

def Before (x y : Nat × Path) : Prop :=
  x.1 < y.1 ∨ x.1 = y.1 ∧ Path.le x.2 y.2 = true

/-- Before any search comes to one file, an earlier search has come to another one, or the same
search does so by a path that is no later. -/
def MetBefore (s : Site) (root : Option Path) (globs : List String) (systemDirs : List Path)
    (a b : Path) : Prop :=
  ∀ search p, FoundBy s root globs systemDirs search p → NamesFile s p b →
    ∃ search' p', FoundBy s root globs systemDirs search' p' ∧ NamesFile s p' a ∧
      Before (search', p') (search, p)

/-- All the regular files that the searches lead to, each once, those of the project first and in
the order in which they are met. -/
structure Collected (s : Site) (root : Option Path) (globs : List String) (systemDirs : List Path)
    (all : List Path) : Prop where
  once : all.Nodup
  exact : ∀ real, real ∈ all ↔
    ∃ p, (InProject s root globs p ∨ InSystem s globs systemDirs p) ∧ NamesFile s p real
  projectFirst : all.Pairwise fun a b =>
    (∃ p, InProject s root globs p ∧ NamesFile s p b) →
      ∃ p, InProject s root globs p ∧ NamesFile s p a
  ordered : all.Pairwise (MetBefore s root globs systemDirs)

/-- A search is stopped: its patterns or directory cannot be searched, or it comes to a path that
has no real path or cannot be asked for. -/
def Hindered (s : Site) (root : Option Path) (globs : List String) (systemDirs : List Path)
    (f : Failure) : Prop :=
  ∃ before batch after found, libraryBatches s root globs systemDirs = before ++ batch :: after ∧
    gather s before = .ok found ∧ BadBatch s found batch f

section Candidates

variable {s : Site} {p real : Path} {found found' : List Path}

theorem isFile_eq_true : s.isFile p = .ok true ↔
    ∃ loc octets executable, s.stat p = .ok (loc, .file octets executable) := by
  unfold Site.isFile Site.ask
  cases s.stat p with
  | ok place =>
    obtain ⟨loc, e⟩ := place
    cases e <;> simp [Except.mapError, isFileEntry]
  | error e =>
    simp only [reduceCtorEq, exists_false, iff_false]
    split <;> simp [Except.mapError]

/-- A path that leads to a regular file has the place of the file as its real path. -/
theorem namesFile_iff (hcwd : s.tree.Grounded s.bars.search s.cwd) :
    NamesFile s p real ↔ s.isFile p = .ok true ∧ s.resolve p = .ok real := by
  have hresolve : ∀ loc e, s.stat p = .ok (loc, e) → s.resolve p = .ok (pathOf loc) := by
    intro loc e hstat
    rw [Site.resolve, resolve_of_statWithin hcwd hstat]
    rfl
  rw [isFile_eq_true]
  constructor
  · rintro ⟨loc, octets, executable, hstat, rfl⟩
    exact ⟨⟨loc, octets, executable, hstat⟩, hresolve _ _ hstat⟩
  · rintro ⟨⟨loc, octets, executable, hstat⟩, hreal⟩
    refine ⟨loc, octets, executable, hstat, ?_⟩
    rw [hresolve _ _ hstat] at hreal
    exact (Except.ok.inj hreal).symm

/-- A candidate is passed over if its place is listed, and added to the list if it is a file. -/
theorem addLibrary_ok (h : addLibrary s found p = .ok found') : ∃ real, s.resolve p = .ok real ∧
    (real ∈ found ∧ found' = found ∨
      real ∉ found ∧ (s.isFile p = .ok true ∧ found' = found ++ [real] ∨
        s.isFile p = .ok false ∧ found' = found)) := by
  obtain ⟨real, hreal, h⟩ := Success.bind_eq_ok.mp h
  refine ⟨real, hreal, ?_⟩
  by_cases hmem : real ∈ found
  · simp only [List.contains_eq_mem, hmem, decide_true, if_true] at h
    cases h
    exact Or.inl ⟨hmem, rfl⟩
  · simp only [List.contains_eq_mem, hmem, decide_false, Bool.false_eq_true, if_false] at h
    obtain ⟨isFile, hfile, h⟩ := Success.bind_eq_ok.mp h
    cases isFile with
    | true =>
      cases h
      exact Or.inr ⟨hmem, Or.inl ⟨hfile, rfl⟩⟩
    | false =>
      cases h
      exact Or.inr ⟨hmem, Or.inr ⟨hfile, rfl⟩⟩

end Candidates

section Runs

variable {s : Site} {seen items : List (Nat × Path)} {y : Nat × Path}
  {found found' all : List Path}

/-- What the candidates seen so far come to, in the order in which they were seen. -/
structure Listed (s : Site) (seen : List (Nat × Path)) (found : List Path) : Prop where
  once : found.Nodup
  exact : ∀ real, real ∈ found ↔ ∃ x ∈ seen, NamesFile s x.2 real
  ordered : found.Pairwise fun a b => ∀ y ∈ seen, NamesFile s y.2 b →
    ∃ x ∈ seen, NamesFile s x.2 a ∧ Before x y

theorem listed_nil (s : Site) : Listed s [] [] where
  once := .nil
  exact := by simp
  ordered := .nil

/-- Among files that are listed a later candidate changes nothing. -/
theorem Listed.ordered_more (h : Listed s seen found) (hlast : ∀ x ∈ seen, Before x y) :
    found.Pairwise fun a b => ∀ z ∈ seen ++ [y], NamesFile s z.2 b →
      ∃ x ∈ seen ++ [y], NamesFile s x.2 a ∧ Before x z := by
  refine h.ordered.imp_of_mem fun {a b} _ hb hab z hz hnames => ?_
  rcases List.mem_append.mp hz with hz | hz
  · obtain ⟨x, hx, hxa, hxz⟩ := hab z hz hnames
    exact ⟨x, List.mem_append_left _ hx, hxa, hxz⟩
  · obtain rfl := List.mem_singleton.mp hz
    obtain ⟨z', hz', hnames'⟩ := (h.exact b).mp hb
    obtain ⟨x, hx, hxa, -⟩ := hab z' hz' hnames'
    exact ⟨x, List.mem_append_left _ hx, hxa, hlast x hx⟩

/-- A candidate that leads to no new file leaves the list as it is. -/
theorem Listed.same (h : Listed s seen found) (hlast : ∀ x ∈ seen, Before x y)
    (hold : ∀ real, NamesFile s y.2 real → real ∈ found) : Listed s (seen ++ [y]) found where
  once := h.once
  exact := by
    intro real
    rw [h.exact]
    constructor
    · rintro ⟨x, hx, hnames⟩
      exact ⟨x, List.mem_append_left _ hx, hnames⟩
    · rintro ⟨x, hx, hnames⟩
      rcases List.mem_append.mp hx with hx | hx
      · exact ⟨x, hx, hnames⟩
      · obtain rfl := List.mem_singleton.mp hx
        exact (h.exact real).mp (hold real hnames)
  ordered := h.ordered_more hlast

/-- A candidate that leads to a new file adds it at the end. -/
theorem Listed.add (h : Listed s seen found) (hlast : ∀ x ∈ seen, Before x y) {real : Path}
    (hnew : real ∉ found) (hnames : NamesFile s y.2 real)
    (honly : ∀ other, NamesFile s y.2 other → other = real) :
    Listed s (seen ++ [y]) (found ++ [real]) where
  once := List.nodup_append.mpr ⟨h.once, List.nodup_singleton _, by
    intro a ha b hb heq
    rw [List.mem_singleton] at hb
    exact hnew (hb ▸ heq ▸ ha)⟩
  exact := by
    intro other
    rw [List.mem_append, h.exact, List.mem_singleton]
    constructor
    · rintro (⟨x, hx, hother⟩ | rfl)
      · exact ⟨x, List.mem_append_left _ hx, hother⟩
      · exact ⟨y, by simp, hnames⟩
    · rintro ⟨x, hx, hother⟩
      rcases List.mem_append.mp hx with hx | hx
      · exact Or.inl ⟨x, hx, hother⟩
      · obtain rfl := List.mem_singleton.mp hx
        exact Or.inr (honly other hother)
  ordered := by
    refine List.pairwise_append.mpr ⟨h.ordered_more hlast, List.pairwise_singleton .., ?_⟩
    intro a ha b hb z hz hz'
    obtain rfl := List.mem_singleton.mp hb
    obtain ⟨x, hx, hxa⟩ := (h.exact a).mp ha
    refine ⟨x, List.mem_append_left _ hx, hxa, ?_⟩
    rcases List.mem_append.mp hz with hz | hz
    · exact absurd ((h.exact b).mpr ⟨z, hz, hz'⟩) hnew
    · exact List.mem_singleton.mp hz ▸ hlast x hx

theorem Listed.step (hcwd : s.tree.Grounded s.bars.search s.cwd) (h : Listed s seen found)
    (hlast : ∀ x ∈ seen, Before x y) (hstep : addLibrary s found y.2 = .ok found') :
    Listed s (seen ++ [y]) found' := by
  obtain ⟨real, hreal, hcases⟩ := addLibrary_ok hstep
  have honly : ∀ other, NamesFile s y.2 other → other = real := by
    intro other hother
    rw [namesFile_iff hcwd, hreal] at hother
    exact (Except.ok.inj hother.2).symm
  rcases hcases with ⟨hmem, rfl⟩ | ⟨hnew, ⟨hfile, rfl⟩ | ⟨hnot, rfl⟩⟩
  · exact h.same hlast fun other hother => honly other hother ▸ hmem
  · exact h.add hlast hnew ((namesFile_iff hcwd).mpr ⟨hfile, hreal⟩) honly
  · refine h.same hlast fun other hother => ?_
    rw [namesFile_iff hcwd, hnot] at hother
    cases hother.1

/-- Candidates that come in their order are listed by all that they lead to. -/
theorem Listed.run (hcwd : s.tree.Grounded s.bars.search s.cwd) (h : Listed s seen found)
    (hsorted : (seen ++ items).Pairwise Before)
    (hrun : items.foldlM (fun found x => addLibrary s found x.2) found = .ok all) :
    Listed s (seen ++ items) all := by
  induction items generalizing seen found with
  | nil =>
    cases hrun
    rwa [List.append_nil]
  | cons y items ih =>
    rw [List.foldlM_cons, Success.bind_eq_ok] at hrun
    obtain ⟨next, hnext, hrun⟩ := hrun
    have hlast : ∀ x ∈ seen, Before x y := fun x hx =>
      (List.pairwise_append.mp hsorted).2.2 x hx y (List.mem_cons_self ..)
    rw [List.append_cons] at hsorted ⊢
    exact ih (h.step hcwd hlast hnext) hsorted hrun

end Runs

section Numbered

variable {s : Site} {batches : List (List Path)}

def inOrder (batches : List (List Path)) : List (Nat × Path) :=
  batches.zipIdx.flatMap fun batch => (batch.1.mergeSort Path.le).map fun p => (batch.2, p)

theorem mem_inOrder {x : Nat × Path} :
    x ∈ inOrder batches ↔ ∃ paths, batches[x.1]? = some paths ∧ x.2 ∈ paths := by
  obtain ⟨search, p⟩ := x
  simp only [inOrder, List.mem_flatMap, List.mem_map, List.mem_mergeSort, Prod.mk.injEq,
    Prod.exists, List.mem_zipIdx_iff_getElem?]
  constructor
  · rintro ⟨paths, search', hget, p', hp, rfl, rfl⟩
    exact ⟨paths, hget, hp⟩
  · rintro ⟨paths, hget, hp⟩
    exact ⟨paths, search, hget, p, hp, rfl, rfl⟩

theorem pairwise_inOrder (batches : List (List Path)) : (inOrder batches).Pairwise Before := by
  have hnumbers : batches.zipIdx.Pairwise fun a b => a.2 < b.2 := by
    rw [← List.pairwise_map (f := Prod.snd) (R := fun a b : Nat => a < b), List.zipIdx_map_snd]
    exact List.pairwise_lt_range'
  rw [inOrder, List.pairwise_flatMap]
  refine ⟨fun batch _ => ?_, hnumbers.imp fun {a b} hlt x hx y hy => ?_⟩
  · rw [List.pairwise_map]
    exact (NameOrder.pairwise_mergeSort_le batch.1).imp fun hle => Or.inr ⟨rfl, hle⟩
  · obtain ⟨p, -, rfl⟩ := List.mem_map.mp hx
    obtain ⟨q, -, rfl⟩ := List.mem_map.mp hy
    exact Or.inl hlt

/-- Batch after batch is gathered as all candidates are in turn. -/
theorem gather_map_ok (s : Site) (batches : List (List Path)) :
    gather s (batches.map .ok) =
      (inOrder batches).foldlM (fun found x => addLibrary s found x.2) [] := by
  have hfrom : ∀ number found, (batches.map .ok).foldlM
      (fun found batch => batch >>= addLibraries s found) found =
        ((batches.zipIdx number).flatMap fun batch =>
          (batch.1.mergeSort Path.le).map fun p => (batch.2, p)).foldlM
            (fun found x => addLibrary s found x.2) found := by
    induction batches with
    | nil => exact fun _ _ => rfl
    | cons paths batches ih =>
      intro number found
      rw [List.map_cons, List.foldlM_cons, List.zipIdx_cons, List.flatMap_cons, List.foldlM_append,
        List.foldlM_map, ← addLibraries_eq]
      exact congrArg _ (funext fun next => ih (number + 1) next)
  exact hfrom 0 []

theorem exists_batches {searches : List (Except Failure (List Path))} {init all : List Path}
    (h : searches.foldlM (fun found batch => batch >>= addLibraries s found) init = .ok all) :
    ∃ batches : List (List Path), searches = batches.map .ok := by
  induction searches generalizing init with
  | nil => exact ⟨[], rfl⟩
  | cons search searches ih =>
    rw [List.foldlM_cons, Success.bind_eq_ok] at h
    obtain ⟨next, hnext, h⟩ := h
    obtain ⟨paths, rfl, -⟩ := Success.bind_eq_ok.mp hnext
    obtain ⟨batches, rfl⟩ := ih h
    exact ⟨paths :: batches, rfl⟩

end Numbered

section Searches

variable {s : Site} {root : Option Path} {globs : List String} {systemDirs : List Path}
  {search : Nat} {p : Path}

def projectSearches (root : Option Path) (globs : List String) : Nat :=
  match root with
  | some _ => globs.length
  | none => 0

theorem systemCandidates_of_stat {suffixes : List String} {directory : Path} {loc : Location}
    (hstat : s.stat directory = .ok (loc, .directory)) (hread : loc ∉ s.bars.read) :
    systemCandidates s suffixes directory = .ok
      ((((s.tree.children loc).map (·.1)).map directory.entry).filter
        fun p => suffixes.contains p.suffix) := by
  have hthere : s.isDirectory directory = .ok true := isDirectory_eq_true.mpr ⟨loc, hstat⟩
  have hnames : entryNames s directory = .ok ((s.tree.children loc).map (·.1)) := by
    simp [entryNames, Site.listNames, hstat, hread, Except.mapError]
  simp [systemCandidates, hthere, hnames, bind, Except.bind, pure, Except.pure]

/-- Of a system directory the entries with a suffix are found. -/
theorem mem_systemCandidates {suffixes : List String} {directory : Path} :
    (∃ paths, systemCandidates s suffixes directory = .ok paths ∧ p ∈ paths) ↔
      ∃ loc name e, s.stat directory = .ok (loc, .directory) ∧ loc ∉ s.bars.read ∧
        s.tree.find? (loc ++ [name]) = some e ∧ p = directory.entry name ∧
        p.suffix ∈ suffixes := by
  constructor
  · rintro ⟨paths, h, hp⟩
    obtain ⟨there, hthere, hrest⟩ := Success.bind_eq_ok.mp h
    cases there with
    | true =>
      obtain ⟨loc, hstat⟩ := isDirectory_eq_true.mp hthere
      have hread : loc ∉ s.bars.read := by
        intro hclosed
        have hnames : entryNames s directory = .error (Failure.ofFile directory .access) := by
          simp [entryNames, Site.listNames, hstat, hclosed, Except.mapError]
        simp [hnames, bind, Except.bind] at hrest
      rw [systemCandidates_of_stat hstat hread] at h
      cases h
      obtain ⟨hp, hsuffix⟩ := List.mem_filter.mp hp
      obtain ⟨name, hname, rfl⟩ := List.mem_map.mp hp
      obtain ⟨e, he⟩ := mem_children_names.mp hname
      exact ⟨loc, name, e, hstat, hread, he, rfl, List.contains_iff_mem.mp hsuffix⟩
    | false =>
      cases hrest
      cases hp
  · rintro ⟨loc, name, e, hstat, hread, he, rfl, hsuffix⟩
    refine ⟨_, systemCandidates_of_stat hstat hread, List.mem_filter.mpr ⟨?_, ?_⟩⟩
    · exact List.mem_map_of_mem (mem_children_names.mpr ⟨e, he⟩)
    · exact List.contains_iff_mem.mpr hsuffix

theorem mem_librarySuffixes {suffix : String} : suffix ∈ librarySuffixes globs ↔
    suffix ≠ "" ∧ ∃ pattern ∈ globs, (Path.ofString pattern).suffix = suffix := by
  simp only [librarySuffixes, List.mem_filter, List.mem_map, bne_iff_ne]
  exact and_comm

theorem inSystem_iff_candidate : InSystem s globs systemDirs p ↔
    ∃ directory ∈ systemDirs, ∃ paths,
      systemCandidates s (librarySuffixes globs) directory = .ok paths ∧ p ∈ paths := by
  simp only [mem_systemCandidates, mem_librarySuffixes, InSystem]
  constructor
  · rintro ⟨directory, loc, name, e, hdirectory, h⟩
    exact ⟨directory, hdirectory, loc, name, e, h⟩
  · rintro ⟨directory, hdirectory, loc, name, e, h⟩
    exact ⟨directory, loc, name, e, hdirectory, h⟩

/-- The batches of the project, which come before those of the system. -/
theorem exists_projectBatches (s : Site) (root : Option Path) (globs : List String)
    (systemDirs : List Path) : ∃ inProject : List (Except Failure (List Path)),
      libraryBatches s root globs systemDirs =
          inProject ++ systemDirs.map (systemCandidates s (librarySuffixes globs)) ∧
        inProject.length = projectSearches root globs ∧
        ∀ p, InProject s root globs p ↔ ∃ paths, .ok paths ∈ inProject ∧ p ∈ paths := by
  cases root with
  | none => exact ⟨[], rfl, rfl, by simp [InProject]⟩
  | some r =>
    refine ⟨globs.map (glob s r), rfl, List.length_map _, fun p => ?_⟩
    simp only [InProject, List.mem_map]
    constructor
    · rintro ⟨_, pattern, paths, ⟨⟩, hpattern, hglob, hp⟩
      exact ⟨paths, ⟨pattern, hpattern, hglob⟩, hp⟩
    · rintro ⟨paths, ⟨pattern, hpattern, hglob⟩, hp⟩
      exact ⟨r, pattern, paths, rfl, hpattern, hglob, hp⟩

/-- The first searches find what matches a pattern below the root. -/
theorem inProject_iff (systemDirs : List Path) : InProject s root globs p ↔
    ∃ search < projectSearches root globs, FoundBy s root globs systemDirs search p := by
  obtain ⟨inProject, hbatches, hlength, hmem⟩ := exists_projectBatches s root globs systemDirs
  simp only [hmem, FoundBy, hbatches, ← hlength, List.mem_iff_getElem?]
  constructor
  · rintro ⟨paths, ⟨search, hget⟩, hp⟩
    have hlt := (List.getElem?_eq_some_iff.mp hget).1
    exact ⟨search, hlt, paths, by rwa [List.getElem?_append_left hlt], hp⟩
  · rintro ⟨search, hlt, paths, hget, hp⟩
    rw [List.getElem?_append_left hlt] at hget
    exact ⟨paths, ⟨search, hget⟩, hp⟩

/-- The other searches find what lies in a system directory. -/
theorem inSystem_iff : InSystem s globs systemDirs p ↔
    ∃ search, projectSearches root globs ≤ search ∧
      FoundBy s root globs systemDirs search p := by
  obtain ⟨inProject, hbatches, hlength, -⟩ := exists_projectBatches s root globs systemDirs
  simp only [inSystem_iff_candidate, FoundBy, hbatches, ← hlength]
  constructor
  · rintro ⟨directory, hdirectory, paths, hpaths, hp⟩
    obtain ⟨number, hget⟩ := List.mem_iff_getElem?.mp hdirectory
    refine ⟨inProject.length + number, Nat.le_add_right .., paths, ?_, hp⟩
    rw [List.getElem?_append_right (Nat.le_add_right ..), Nat.add_sub_cancel_left,
      List.getElem?_map, hget, Option.map_some, hpaths]
  · rintro ⟨search, hle, paths, hget, hp⟩
    rw [List.getElem?_append_right hle, List.getElem?_map] at hget
    obtain ⟨directory, hdirectory, hpaths⟩ := Option.map_eq_some_iff.mp hget
    exact ⟨directory, List.mem_of_getElem? hdirectory, paths, hpaths, hp⟩

theorem foundBy_iff : (∃ search, FoundBy s root globs systemDirs search p) ↔
    InProject s root globs p ∨ InSystem s globs systemDirs p := by
  rw [inProject_iff systemDirs, inSystem_iff]
  constructor
  · rintro ⟨search, hfound⟩
    rcases Nat.lt_or_ge search (projectSearches root globs) with hlt | hle
    · exact Or.inl ⟨search, hlt, hfound⟩
    · exact Or.inr ⟨search, hle, hfound⟩
  · rintro (⟨search, -, hfound⟩ | ⟨search, -, hfound⟩) <;> exact ⟨search, hfound⟩

end Searches

section Libraries

variable {s : Site} {root : Option Path} {globs : List String} {systemDirs : List Path}
  {all : List Path}

/-- What is gathered from all searches. -/
theorem collected_of_gather (hcwd : s.tree.Grounded s.bars.search s.cwd)
    (h : gather s (libraryBatches s root globs systemDirs) = .ok all) :
    Collected s root globs systemDirs all := by
  obtain ⟨batches, hbatches⟩ := exists_batches h
  rw [hbatches, gather_map_ok] at h
  have hlisted : Listed s (inOrder batches) all :=
    (listed_nil s).run hcwd (pairwise_inOrder batches) h
  have hfound : ∀ x : Nat × Path,
      x ∈ inOrder batches ↔ FoundBy s root globs systemDirs x.1 x.2 := by
    intro x
    simp only [mem_inOrder, FoundBy, hbatches, List.getElem?_map, Option.map_eq_some_iff,
      Except.ok.injEq, exists_eq_right]
  have hordered : all.Pairwise (MetBefore s root globs systemDirs) := by
    refine hlisted.ordered.imp fun {a b} hab search p hp hnames => ?_
    obtain ⟨x, hx, hxa, hbefore⟩ := hab (search, p) ((hfound (search, p)).mpr hp) hnames
    exact ⟨x.1, x.2, (hfound x).mp hx, hxa, hbefore⟩
  refine ⟨hlisted.once, fun real => ?_, ?_, hordered⟩
  · rw [hlisted.exact]
    simp only [hfound, ← foundBy_iff]
    constructor
    · rintro ⟨x, hx, hnames⟩
      exact ⟨x.2, ⟨x.1, hx⟩, hnames⟩
    · rintro ⟨p, ⟨search, hp⟩, hnames⟩
      exact ⟨(search, p), hp, hnames⟩
  · refine hordered.imp fun {a b} hab hb => ?_
    obtain ⟨p, hp, hnames⟩ := hb
    obtain ⟨search, hlt, hp⟩ := (inProject_iff systemDirs).mp hp
    obtain ⟨search', p', hp', hnames', hbefore⟩ := hab search p hp hnames
    have hle : search' ≤ search := by
      rcases hbefore with hlt | ⟨heq, -⟩
      · exact Nat.le_of_lt hlt
      · exact Nat.le_of_eq heq
    exact ⟨p', (inProject_iff systemDirs).mpr ⟨search', by omega, hp'⟩, hnames'⟩

theorem slice_zero {α : Type} (items : List α) (limit : Nat) :
    Text.slice items 0 limit = items.take limit := by
  have hnot : ¬ (limit : Int) < 0 := by omega
  simp [Text.slice, Text.sliceBound, hnot]

/-- Unless a search is stopped, by links that lead round in a loop, a path that is too long, barred
or holds a NUL, a directory of the system that may not be read, or a pattern that is none, the
libraries are the first ones, as many as there may be, of all that the searches lead to. -/
theorem libraries_unless_hindered (hcwd : s.tree.Grounded s.bars.search s.cwd) (root : Option Path)
    (globs : List String) (systemDirs : List Path) (limit : Nat) :
    (∀ f, libraries s root globs systemDirs limit = .error f ↔
      Hindered s root globs systemDirs f) ∧
      (∀ f, Hindered s root globs systemDirs f → Fault s f) ∧
      ((∀ f, ¬ Hindered s root globs systemDirs f) →
        ∃ all, Collected s root globs systemDirs all ∧
          libraries s root globs systemDirs limit = .ok (all.take limit)) := by
  refine ⟨fun f => libraries_eq_error, ?_, fun hfree => ?_⟩
  · rintro f ⟨before, batch, after, found, hbatches, -, hbad⟩
    have hbatch : batch ∈ libraryBatches s root globs systemDirs := by
      rw [hbatches]
      simp
    exact hbad.fault hbatch
  · have hlibraries := libraries_eq (s := s) root globs systemDirs limit
    cases hgather : gather s (libraryBatches s root globs systemDirs) with
    | error f =>
      rw [hgather] at hlibraries
      exact absurd (libraries_eq_error.mp hlibraries) (hfree f)
    | ok all =>
      refine ⟨all, collected_of_gather hcwd hgather, ?_⟩
      rw [hlibraries, hgather, ← slice_zero]
      rfl

/-- One library is linked to beside itself and from a system directory, which holds another one. -/
private def linkedArchives : Site :=
  ⟨⟨[(["p"], .directory), (["p", "m.a"], .link "n.a"), (["p", "n.a"], .file [] false),
    (["s"], .directory), (["s", "n.a"], .link "/p/n.a"), (["s", "o.a"], .file [] false)]⟩,
    [], [], {}⟩

theorem libraries_unless_hindered_linkedArchives :
    (∀ f, ¬ Hindered linkedArchives (some ⟨.root, ["p"]⟩) ["*.a"] [⟨.root, ["s"]⟩] f) ∧
      ∃ all, Collected linkedArchives (some ⟨.root, ["p"]⟩) ["*.a"] [⟨.root, ["s"]⟩] all ∧
        all.take 2 = [⟨.root, ["p", "n.a"]⟩, ⟨.root, ["s", "o.a"]⟩] := by
  obtain ⟨herror, -, hok⟩ := libraries_unless_hindered (s := linkedArchives) .top
    (some ⟨.root, ["p"]⟩) ["*.a"] [⟨.root, ["s"]⟩] 2
  have hlibraries : libraries linkedArchives (some ⟨.root, ["p"]⟩) ["*.a"] [⟨.root, ["s"]⟩] 2 =
      .ok [⟨.root, ["p", "n.a"]⟩, ⟨.root, ["s", "o.a"]⟩] := by cbv
  have hfree : ∀ f, ¬ Hindered linkedArchives (some ⟨.root, ["p"]⟩) ["*.a"]
      [⟨.root, ["s"]⟩] f := by
    intro f hf
    cases hlibraries.symm.trans ((herror f).mpr hf)
  obtain ⟨all, hall, htake⟩ := hok hfree
  exact ⟨hfree, all, hall, Except.ok.inj (htake.symm.trans hlibraries)⟩

end Libraries

end SnippetRunner.Project
