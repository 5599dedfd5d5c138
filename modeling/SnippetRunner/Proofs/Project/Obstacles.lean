import SnippetRunner.Project.Library
import SnippetRunner.Project.Root
import SnippetRunner.Proofs.FileTree.RealPaths
import SnippetRunner.Proofs.Success

/-!
Where the searches of a project stop short. A question about a path stays open only when the path
is too long to be walked or leads through a directory that is barred and, when the real path is
asked for, when it holds a NUL or its links lead round in a loop. The searches for the root and for
libraries fail exactly when they come to such a path, to a directory of the system that may not be
read, or to a pattern that is none.
-/
namespace SnippetRunner.Project

variable {s : Site} {p : Path} {f : Failure}

section Paths

/-- A path cannot be looked at: the path, a name on the way or what a link on the way says is too
long to be walked, or a directory on the way is barred. -/
def Unseen (s : Site) (p : Path) (f : Failure) : Prop :=
  ∃ e, (e = .nameTooLong ∨ e = .access) ∧ s.stat p = .error e ∧ f = .ofFile p e

def Unreal (s : Site) (p : Path) (f : Failure) : Prop :=
  p.hasNul = true ∧ f = .file (.at_ .nullByte "") ∨
    p.hasNul = false ∧
      ∃ real, real = FileTree.pathOf (s.tree.realPath s.bars.search s.cwd p) ∧
        s.tree.statWithin s.bars.search [] real = .error .linkLoop ∧ f = .linkLoop real

theorem ask_eq_error {test : Entry → Bool} {e : FileError} :
    s.ask p test = .error e ↔ (e = .nameTooLong ∨ e = .access) ∧ s.stat p = .error e := by
  rw [Site.ask_eq_error]
  constructor
  · rintro ⟨hstat, hpresent⟩
    refine ⟨(FileTree.statWithin_error_kind hstat).resolve_left ?_, hstat⟩
    simp [hpresent]
  · rintro ⟨rfl | rfl, hstat⟩ <;> exact ⟨hstat, rfl⟩

private theorem ask_mapError {test : Entry → Bool} :
    (s.ask p test).mapError (Failure.ofFile p) = .error f ↔ Unseen s p f := by
  unfold Unseen
  cases hask : s.ask p test with
  | ok answer =>
    simp only [Except.mapError, reduceCtorEq, false_iff]
    rintro ⟨e, hkind, hstat, -⟩
    cases hask.symm.trans (ask_eq_error.mpr ⟨hkind, hstat⟩)
  | error e =>
    obtain ⟨hkind, hstat⟩ := ask_eq_error.mp hask
    simp only [Except.mapError, Except.error.injEq, hstat]
    constructor
    · rintro rfl
      exact ⟨e, hkind, rfl, rfl⟩
    · rintro ⟨e', -, rfl, rfl⟩
      rfl

theorem pathExists_eq_error : s.pathExists p = .error f ↔ Unseen s p f :=
  ask_mapError

theorem isDirectory_eq_error : s.isDirectory p = .error f ↔ Unseen s p f :=
  ask_mapError

theorem isFile_eq_error : s.isFile p = .error f ↔ Unseen s p f :=
  ask_mapError

theorem resolve_eq_error : s.resolve p = .error f ↔ Unreal s p f := by
  unfold Site.resolve FileTree.resolve Unreal
  cases p.hasNul with
  | true => simp [Except.mapError, Failure.ofResolve, eq_comm]
  | false =>
    simp only [Bool.false_eq_true, if_false]
    split
    · rename_i hloop
      simp [Except.mapError, Failure.ofResolve, hloop, eq_comm]
    · rename_i hnot
      constructor
      · rintro ⟨⟩
      · rintro (⟨⟨⟩, -⟩ | ⟨-, real, rfl, hloop, -⟩)
        exact absurd hloop hnot

end Paths

section Root

def StuckAmong (s : Site) (places : List Path) (f : Failure) : Prop :=
  ∃ before p after, places = before ++ p :: after ∧
    (∀ q ∈ before, s.pathExists q = .ok false) ∧ Unseen s p f

def markerPlaces (directories : List Path) (markers : List String) : List Path :=
  directories.flatMap fun d => markers.map d.child

theorem stuckAmong_nil : ¬ StuckAmong s [] f := by
  simp [StuckAmong]

theorem stuckAmong_cons {places : List Path} :
    StuckAmong s (p :: places) f ↔ s.pathExists p = .error f ∨
      s.pathExists p = .ok false ∧ StuckAmong s places f := by
  constructor
  · rintro ⟨before, q, after, heq, habsent, hunseen⟩
    cases before with
    | nil =>
      obtain ⟨rfl, rfl⟩ := List.cons.inj heq
      exact Or.inl (pathExists_eq_error.mpr hunseen)
    | cons first before =>
      obtain ⟨rfl, rfl⟩ := List.cons.inj heq
      exact Or.inr ⟨habsent _ (List.mem_cons_self ..), before, q, after, rfl,
        fun r hr => habsent r (List.mem_cons_of_mem _ hr), hunseen⟩
  · rintro (hp | ⟨habsent, before, q, after, rfl, hbefore, hq⟩)
    · exact ⟨[], p, places, rfl, by simp, pathExists_eq_error.mp hp⟩
    · refine ⟨p :: before, q, after, rfl, ?_, hq⟩
      intro r hr
      rcases List.mem_cons.mp hr with rfl | hr
      · exact habsent
      · exact hbefore r hr

theorem stuckAmong_append {a b : List Path} :
    StuckAmong s (a ++ b) f ↔ StuckAmong s a f ∨
      (∀ q ∈ a, s.pathExists q = .ok false) ∧ StuckAmong s b f := by
  induction a with
  | nil => simp [stuckAmong_nil]
  | cons p a ih =>
    rw [List.cons_append, stuckAmong_cons, stuckAmong_cons, ih, List.forall_mem_cons,
      and_or_left, or_assoc, and_assoc]

theorem holdsMarker_eq_false {directory : Path} {markers : List String} :
    holdsMarker s directory markers = .ok false ↔
      ∀ q ∈ markers.map directory.child, s.pathExists q = .ok false := by
  induction markers with
  | nil => simp [holdsMarker]
  | cons marker rest ih =>
    rw [List.map_cons, List.forall_mem_cons, ← ih, holdsMarker]
    cases s.pathExists (directory.child marker) with
    | error g => simp [bind, Except.bind]
    | ok there => cases there <;> simp [bind, Except.bind, pure, Except.pure]

theorem holdsMarker_eq_error {directory : Path} {markers : List String} :
    holdsMarker s directory markers = .error f ↔
      StuckAmong s (markers.map directory.child) f := by
  induction markers with
  | nil => simp [holdsMarker, stuckAmong_nil]
  | cons marker rest ih =>
    rw [List.map_cons, stuckAmong_cons, ← ih, holdsMarker]
    cases s.pathExists (directory.child marker) with
    | error g => simp [bind, Except.bind]
    | ok there => cases there <;> simp [bind, Except.bind, pure, Except.pure]

theorem firstMarked_eq_error {markers : List String} {directories : List Path} :
    firstMarked s markers directories = .error f ↔
      StuckAmong s (markerPlaces directories markers) f := by
  induction directories with
  | nil => simp [firstMarked, markerPlaces, stuckAmong_nil]
  | cons directory rest ih =>
    rw [markerPlaces, List.flatMap_cons, stuckAmong_append, ← holdsMarker_eq_error,
      ← holdsMarker_eq_false, ← markerPlaces, ← ih, firstMarked]
    cases holdsMarker s directory markers with
    | error g => simp [bind, Except.bind]
    | ok holds => cases holds <;> simp [bind, Except.bind, pure, Except.pure]

/-- The root search fails if it has nowhere to start, or at a place that it cannot look at. -/
theorem findRoot_eq_error {start : Path} {markers : List String} {maxDepth : Int} :
    findRoot s start markers maxDepth = .error f ↔ Unreal s start f ∨
      ∃ directory, s.resolve start = .ok directory ∧
        StuckAmong s
          (markerPlaces ((ancestors directory).take (maxDepth + 1).toNat) markers) f := by
  rw [findRoot, Success.bind_eq_error, resolve_eq_error]
  simp only [firstMarked_eq_error]

end Root

section Library

def addLibrary (s : Site) (found : List Path) (p : Path) : Except Failure (List Path) := do
  let real ← s.resolve p
  if found.contains real then return found
  else if ← s.isFile p then return found ++ [real]
  else return found

def libraryBatches (s : Site) (root : Option Path) (globs : List String)
    (systemDirs : List Path) : List (Except Failure (List Path)) :=
  (match root with
    | some root => globs.map (glob s root)
    | none => []) ++
    systemDirs.map (systemCandidates s (librarySuffixes globs))

def gather (s : Site) (batches : List (Except Failure (List Path))) :
    Except Failure (List Path) :=
  batches.foldlM (fun found batch => batch >>= addLibraries s found) []

def BadCandidate (s : Site) (listed : List Path) (p : Path) (f : Failure) : Prop :=
  Unreal s p f ∨ ∃ real, s.resolve p = .ok real ∧ real ∉ listed ∧ Unseen s p f

def BadBatch (s : Site) (listed : List Path) (batch : Except Failure (List Path))
    (f : Failure) : Prop :=
  batch = .error f ∨ ∃ paths before p after found, batch = .ok paths ∧
    paths.mergeSort Path.le = before ++ p :: after ∧
    before.foldlM (addLibrary s) listed = .ok found ∧ BadCandidate s found p f

theorem addLibrary_eq_error {found : List Path} :
    addLibrary s found p = .error f ↔ BadCandidate s found p f := by
  rw [addLibrary, Success.bind_eq_error, resolve_eq_error]
  apply or_congr_right
  apply exists_congr
  intro real
  apply and_congr_right
  intro hreal
  by_cases hlisted : real ∈ found
  · simp [hlisted, pure, Except.pure]
  · simp only [List.contains_eq_mem, hlisted, decide_false, Bool.false_eq_true, if_false,
      not_false_eq_true, true_and, Success.bind_eq_error, isFile_eq_error]
    apply or_iff_left
    rintro ⟨isFile, -, h⟩
    split at h <;> cases h

theorem addLibraries_eq (found paths : List Path) :
    addLibraries s found paths = (paths.mergeSort Path.le).foldlM (addLibrary s) found :=
  rfl

theorem addBatch_eq_error {found : List Path} {batch : Except Failure (List Path)} :
    (batch >>= addLibraries s found) = .error f ↔ BadBatch s found batch f := by
  rw [Success.bind_eq_error]
  simp only [addLibraries_eq, Success.foldlM_eq_error, addLibrary_eq_error, BadBatch]
  apply or_congr_right
  constructor
  · rintro ⟨paths, hbatch, before, q, after, acc, hsplit, hbefore, hq⟩
    exact ⟨paths, before, q, after, acc, hbatch, hsplit, hbefore, hq⟩
  · rintro ⟨paths, before, q, after, acc, hbatch, hsplit, hbefore, hq⟩
    exact ⟨paths, hbatch, before, q, after, acc, hsplit, hbefore, hq⟩

/-- The libraries are the first ones gathered from all batches in turn. -/
theorem libraries_eq (root : Option Path) (globs : List String) (systemDirs : List Path)
    (limit : Int) :
    libraries s root globs systemDirs limit =
      (gather s (libraryBatches s root globs systemDirs)).map fun all =>
        Text.slice all 0 limit := by
  unfold libraries gather libraryBatches
  rw [List.foldlM_append]
  cases root with
  | none =>
    simp only [List.foldlM_nil, List.foldlM_map, pure_bind]
    exact bind_pure_comp ..
  | some root =>
    simp only [List.foldlM_map, bind_pure_comp]
    exact (map_bind ..).symm

/-- The search for libraries fails at the first batch with something bad in it. -/
theorem libraries_eq_error {root : Option Path} {globs : List String} {systemDirs : List Path}
    {limit : Int} :
    libraries s root globs systemDirs limit = .error f ↔
      ∃ before batch after found, libraryBatches s root globs systemDirs =
        before ++ batch :: after ∧ gather s before = .ok found ∧ BadBatch s found batch f := by
  rw [libraries_eq, Success.map_eq_error, gather, Success.foldlM_eq_error]
  simp only [addBatch_eq_error]
  rfl

end Library

section Faults

/-- What a search fails with: links that lead round in a loop, a path that is too long, that leads
through a barred directory or that holds a NUL, a directory that may not be read, or a pattern that
is none. -/
inductive Fault (s : Site) : Failure → Prop
  | loop (real : Path) :
      s.tree.statWithin s.bars.search [] real = .error .linkLoop → Fault s (.linkLoop real)
  | unseen (p : Path) (f : Failure) : Unseen s p f → Fault s f
  | closed (p : Path) (loc : Location) :
      s.stat p = .ok (loc, .directory) → loc ∈ s.bars.read → Fault s (.ofFile p .access)
  | nul (shown : String) : Fault s (.file ⟨.nullByte, shown⟩)
  | pattern (fault : GlobFault) : Fault s (.glob fault)

theorem Unreal.fault (h : Unreal s p f) : Fault s f := by
  obtain ⟨-, rfl⟩ | ⟨-, real, -, hloop, rfl⟩ := h
  · exact .nul _
  · exact .loop real hloop

theorem StuckAmong.fault {places : List Path} (h : StuckAmong s places f) : Fault s f := by
  obtain ⟨before, q, after, -, -, hunseen⟩ := h
  exact .unseen q f hunseen

theorem fault_of_isDirectory (h : s.isDirectory p = .error f) : Fault s f :=
  .unseen p f (isDirectory_eq_error.mp h)

/-- A path that is walked to a directory, whether or not the process may go there. -/
def Descends (s : Site) (p : Path) : Prop :=
  ∃ loc, s.tree.walkFrom true FileTree.linkBudget (FileTree.startOf s.cwd p) p.parts =
    .ok (.existing loc .directory)

theorem isDirectory_eq_true :
    s.isDirectory p = .ok true ↔ ∃ loc, s.stat p = .ok (loc, .directory) := by
  unfold Site.isDirectory Site.ask
  cases s.stat p with
  | ok found =>
    obtain ⟨loc, e⟩ := found
    cases e <;> simp [Except.mapError, FileTree.isDirectoryEntry]
  | error e =>
    simp only [reduceCtorEq, exists_false, iff_false]
    split <;> simp [Except.mapError]

theorem descends_of_stat {loc : Location} (h : s.stat p = .ok (loc, .directory)) :
    Descends s p :=
  ⟨loc, FileTree.walk_ok (FileTree.stat_eq_ok.mp (FileTree.statWithin_eq_ok.mp h).1)⟩

/-- Where the walk leads to a directory, looking there fails only at a path that is too long,
barred or holds a NUL. -/
theorem Descends.stat_error {e : FileError} (h : Descends s p) (hstat : s.stat p = .error e) :
    (e = .nameTooLong ∨ e = .access) ∨ e = .nullByte := by
  obtain ⟨loc, hwalk⟩ := h
  unfold Site.stat FileTree.statWithin at hstat
  split at hstat
  · cases hstat
    exact Or.inr rfl
  · rename_i hnul
    split at hstat
    · cases hstat
      exact Or.inl (Or.inl rfl)
    · rename_i hlong
      split at hstat
      · cases hstat
        exact Or.inl (Or.inr rfl)
      · rw [FileTree.stat, FileTree.walk_short (by simpa using hnul) (by omega), hwalk] at hstat
        simp at hstat

/-- A listing that fails does so as the look at its directory does, or finds it closed. -/
theorem Descends.listNames_error {e : FileError} (h : Descends s p)
    (hlist : s.listNames p = .error e) : Fault s (.ofFile p e) := by
  unfold Site.listNames at hlist
  cases hstat : s.stat p with
  | error e' =>
    simp only [hstat, Except.error.injEq] at hlist
    subst hlist
    rcases h.stat_error hstat with hkind | rfl
    · exact .unseen p _ ⟨e', hkind, hstat, rfl⟩
    · exact .nul _
  | ok found =>
    obtain ⟨loc, entry⟩ := found
    obtain ⟨loc', hwalk⟩ := h
    have hdirectory := FileTree.walk_ok (FileTree.stat_eq_ok.mp
      (FileTree.statWithin_eq_ok.mp hstat).1)
    cases hwalk.symm.trans hdirectory
    simp only [hstat] at hlist
    split at hlist
    · rename_i hclosed
      cases hlist
      exact .closed p loc hstat (List.contains_iff_mem.mp hclosed)
    · cases hlist

theorem entryNames_fault (hp : s.isDirectory p = .ok true) (h : entryNames s p = .error f) :
    Fault s f := by
  obtain ⟨loc, hstat⟩ := isDirectory_eq_true.mp hp
  cases hlist : s.listNames p with
  | ok names => simp [entryNames, hlist, Except.mapError] at h
  | error e =>
    simp only [entryNames, hlist, Except.mapError, Except.error.injEq] at h
    exact h ▸ (descends_of_stat hstat).listNames_error hlist

theorem scan_fault (hp : Descends s p) (h : scan s p = .error f) : Fault s f := by
  unfold scan at h
  split at h
  · cases h
  · cases h
  · rename_i hlist
    cases h
    exact hp.listNames_error hlist

theorem descends_of_listedAs (h : s.listedAs p = some .directory) : Descends s p := by
  unfold Site.listedAs at h
  split at h
  · rename_i loc entry hwalk
    cases h
    exact ⟨loc, FileTree.walkFrom_followed nofun hwalk⟩
  · cases h

/-- A search goes on only to directories, and stops at an entry that it cannot look at. -/
theorem leadsOn_cases (s : Site) (p : Path) :
    (leadsOn s p = .ok true ∧ Descends s p) ∨ leadsOn s p = .ok false ∨
      ∃ e, leadsOn s p = .error e ∧ Fault s (.ofFile p e) := by
  unfold leadsOn
  split
  · rename_i hlisted
    exact Or.inl ⟨rfl, descends_of_listedAs hlisted⟩
  · cases hask : s.ask p FileTree.isDirectoryEntry with
    | error e =>
      obtain ⟨hkind, hstat⟩ := ask_eq_error.mp hask
      exact Or.inr (Or.inr ⟨e, rfl, .unseen p _ ⟨e, hkind, hstat, rfl⟩⟩)
    | ok answer =>
      cases answer with
      | false => exact Or.inr (Or.inl rfl)
      | true =>
        have hdirectory : s.isDirectory p = .ok true := by
          simp [Site.isDirectory, hask, Except.mapError]
        obtain ⟨loc, hstat⟩ := isDirectory_eq_true.mp hdirectory
        exact Or.inl ⟨rfl, descends_of_stat hstat⟩
  · exact Or.inr (Or.inl rfl)

section Select

variable {select : Path → Except Failure (List Path)} {onlyDirectories : Bool}

theorem selectAmong_fault {fits : String → Bool} {entries : List Path}
    (hselect : ∀ q f, (onlyDirectories = true → Descends s q) → select q = .error f → Fault s f)
    (h : selectAmong s onlyDirectories fits select entries = .error f) : Fault s f := by
  induction entries with
  | nil => cases h
  | cons entry rest ih =>
    have hhere : (onlyDirectories = true → Descends s entry) →
        ((if fits entry.name then select entry else .ok []) >>= fun found =>
          selectAmong s onlyDirectories fits select rest >>= fun more =>
            pure (found ++ more)) = .error f → Fault s f := by
      intro hgoes h
      obtain h | ⟨found, -, h⟩ := Success.bind_eq_error.mp h
      · split at h
        · exact hselect entry f hgoes h
        · cases h
      · obtain h | ⟨more, -, h⟩ := Success.bind_eq_error.mp h
        · exact ih h
        · cases h
    rw [selectAmong] at h
    cases onlyDirectories with
    | false => exact hhere nofun h
    | true =>
      obtain ⟨hleads, hgoes⟩ | hleads | ⟨e, hleads, hfault⟩ := leadsOn_cases s entry
      · simp only [if_true, hleads] at h
        exact hhere (fun _ => hgoes) h
      · simp only [if_true, hleads] at h
        exact ih h
      · simp only [if_true, hleads] at h
        split at h
        · cases h
        · rename_i heq
          cases heq
          cases h
          exact hfault
        · rename_i heq
          cases heq
        · rename_i heq
          cases heq

theorem selectBelow_fault (hselect : ∀ q f, Descends s q → select q = .error f → Fault s f)
    (fuel : Nat) (hp : Descends s p) (h : selectBelow s select fuel p = .error f) : Fault s f := by
  induction fuel generalizing p with
  | zero => exact hselect p f hp h
  | succ fuel ih =>
    rw [selectBelow, Success.bind_eq_error] at h
    obtain h | ⟨found, -, h⟩ := h
    · exact hselect p f hp h
    obtain h | ⟨entries, -, h⟩ := Success.bind_eq_error.mp h
    · exact scan_fault hp h
    obtain h | ⟨more, -, h⟩ := Success.bind_eq_error.mp h
    · obtain ⟨q, hq, h⟩ := Success.mapM_error h
      exact ih (descends_of_listedAs (by simpa using (List.mem_filter.mp hq).2)) h
    · cases h

theorem selectNext_fault
    (hselect : ∀ q f, (onlyDirectories = true → Descends s q) → select q = .error f → Fault s f)
    (h : selectNext s onlyDirectories select p = .error f) : Fault s f := by
  unfold selectNext at h
  split at h
  · rename_i hask
    refine hselect p f (fun honly => ?_) h
    subst honly
    have hdirectory : s.isDirectory p = .ok true := by
      simpa [Site.isDirectory, Except.mapError] using
        congrArg (Except.mapError (Failure.ofFile p)) hask
    obtain ⟨loc, hstat⟩ := isDirectory_eq_true.mp hdirectory
    exact descends_of_stat hstat
  · cases h
  · cases h
  · rename_i hask
    cases h
    obtain ⟨hkind, hstat⟩ := ask_eq_error.mp hask
    exact .unseen p _ ⟨_, hkind, hstat, rfl⟩

end Select

theorem selectPaths_fault {directoriesOnly : Bool} {parts : List GlobPart}
    (hp : parts ≠ [] → Descends s p)
    (h : selectPaths s directoriesOnly parts p = .error f) : Fault s f := by
  induction parts generalizing p f with
  | nil => cases h
  | cons part rest ih =>
    have hdescends := hp (List.cons_ne_nil part rest)
    -- Only at the last part may something else than a directory be gone on from.
    have hselect : ∀ q f, ((directoriesOnly || !rest.isEmpty) = true → Descends s q) →
        selectPaths s directoriesOnly rest q = .error f → Fault s f := by
      intro q f hq h
      exact ih (fun hrest => hq (by simp [hrest])) h
    cases part with
    | exact name =>
      rw [selectPaths] at h
      exact selectNext_fault hselect h
    | wildcard pattern =>
      rw [selectPaths] at h
      obtain h | ⟨entries, -, h⟩ := Success.bind_eq_error.mp h
      · exact scan_fault hdescends h
      · exact selectAmong_fault hselect h
    | anyDepth =>
      rw [selectPaths] at h
      obtain h | ⟨found, -, h⟩ := Success.bind_eq_error.mp h
      · exact selectBelow_fault (fun q f hq h => hselect q f (fun _ => hq) h) _ hdescends h
      · cases h

theorem glob_fault {root : Path} {pattern : String} (h : glob s root pattern = .error f) :
    Fault s f := by
  rw [glob, Success.bind_eq_error] at h
  obtain h | ⟨⟨parts, directoriesOnly⟩, -, h⟩ := h
  · cases hparts : globParts pattern with
    | ok parts => simp [hparts, Except.mapError] at h
    | error fault =>
      simp only [hparts, Except.mapError, Except.error.injEq] at h
      exact h ▸ .pattern fault
  · obtain h | ⟨there, hthere, h⟩ := Success.bind_eq_error.mp h
    · exact fault_of_isDirectory h
    · cases there with
      | true =>
        obtain ⟨loc, hstat⟩ := isDirectory_eq_true.mp hthere
        exact selectPaths_fault (fun _ => descends_of_stat hstat) h
      | false => cases h

theorem systemCandidates_fault {suffixes : List String}
    (h : systemCandidates s suffixes p = .error f) : Fault s f := by
  rw [systemCandidates, Success.bind_eq_error] at h
  obtain h | ⟨there, hthere, h⟩ := h
  · exact fault_of_isDirectory h
  · cases there with
    | true =>
      obtain h | ⟨names, -, h⟩ := Success.bind_eq_error.mp h
      · exact entryNames_fault hthere h
      · cases h
    | false => cases h

theorem libraryBatches_fault {root : Option Path} {globs : List String} {systemDirs : List Path}
    (h : .error f ∈ libraryBatches s root globs systemDirs) : Fault s f := by
  rcases List.mem_append.mp h with h | h
  · cases root with
    | none => cases h
    | some root =>
      obtain ⟨pattern, -, h⟩ := List.mem_map.mp h
      exact glob_fault h
  · obtain ⟨directory, -, h⟩ := List.mem_map.mp h
    exact systemCandidates_fault h

/-- Whatever is bad in a batch of candidates is a fault. -/
theorem BadBatch.fault {root : Option Path} {globs : List String} {systemDirs : List Path}
    {batch : Except Failure (List Path)} {found : List Path} (h : BadBatch s found batch f)
    (hbatch : batch ∈ libraryBatches s root globs systemDirs) : Fault s f := by
  obtain rfl | ⟨paths, before, p, after, kept, -, -, -, hbad⟩ := h
  · exact libraryBatches_fault hbatch
  · obtain hunreal | ⟨real, -, -, hunseen⟩ := hbad
    · exact hunreal.fault
    · exact .unseen p f hunseen

end Faults

end SnippetRunner.Project
