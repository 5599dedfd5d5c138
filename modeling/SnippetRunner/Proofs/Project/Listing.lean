import SnippetRunner.Project.Listing
import SnippetRunner.Proofs.Success

/-!
Where the files of a project are. A scan descends from the root by names of entries of the
file tree, at least one of them, so that every file has a path below the root.
-/
namespace SnippetRunner.Project

def Occurs (s : Site) (name : String) : Prop :=
  ∃ e ∈ s.tree.entries, name ∈ e.1

def AtOrBelow (s : Site) (root p : Path) : Prop :=
  ∃ names, (∀ n ∈ names, Occurs s n) ∧ p = ⟨root.anchor, root.parts ++ names⟩

def Below (s : Site) (root p : Path) : Prop :=
  ∃ directory name, AtOrBelow s root directory ∧ Occurs s name ∧ p = directory.entry name

variable {s : Site} {search : Search} {root : Path}

theorem Below.names {p : Path} (h : Below s root p) :
    ∃ names, names ≠ [] ∧ (∀ n ∈ names, Occurs s n) ∧ p = ⟨root.anchor, root.parts ++ names⟩ := by
  obtain ⟨directory, name, ⟨names, hnames, rfl⟩, hname, rfl⟩ := h
  refine ⟨names ++ [name], by simp, ?_, by simp [Path.entry]⟩
  intro n hn
  rcases List.mem_append.mp hn with hn | hn
  · exact hnames n hn
  · exact List.mem_singleton.mp hn ▸ hname

theorem Below.atOrBelow {p : Path} (h : Below s root p) : AtOrBelow s root p := by
  obtain ⟨names, -, hnames, hp⟩ := h.names
  exact ⟨names, hnames, hp⟩

theorem Below.relativeTo? {p : Path} (h : Below s root p) :
    ∃ names, names ≠ [] ∧ (∀ n ∈ names, Occurs s n) ∧
      p = ⟨root.anchor, root.parts ++ names⟩ ∧ p.relativeTo? root = some ⟨.here, names⟩ := by
  obtain ⟨names, hne, hnames, rfl⟩ := h.names
  exact ⟨names, hne, hnames, rfl, by simp [Path.relativeTo?]⟩

theorem occurs_of_mem_children {loc : Location} {name : String}
    (h : name ∈ (s.tree.children loc).map (·.1)) : Occurs s name := by
  obtain ⟨⟨n, e⟩, hmem, rfl⟩ := List.mem_map.mp h
  obtain ⟨entry, hentry, hsome⟩ := List.mem_filterMap.mp hmem
  refine ⟨entry, hentry, ?_⟩
  split at hsome
  · rename_i last hlast
    split at hsome
    · cases hsome
      exact List.mem_of_getLast? hlast
    · cases hsome
  · cases hsome

theorem mem_sortedEntries {directory : Path} {entries : List Path}
    (h : sortedEntries s directory = .ok entries) :
    ∀ p ∈ entries, ∃ name, Occurs s name ∧ p = directory.entry name := by
  intro p hp
  unfold sortedEntries at h
  split at h
  · rename_i names hnames
    cases h
    obtain ⟨name, hname, rfl⟩ := List.mem_map.mp hp
    refine ⟨name, ?_, rfl⟩
    unfold Site.listNames at hnames
    split at hnames
    · split at hnames
      · cases hnames
      · cases hnames
        exact occurs_of_mem_children (List.mem_mergeSort.mp hname)
    all_goals cases hnames
  · split at h
    · cases h
      simp at hp
    · cases h

def Harvest.All (h : Harvest) (P Q : Path → Prop) : Prop :=
  (∀ p ∈ h.files, P p) ∧ ∀ p ∈ h.directories, Q p

theorem Harvest.All.append {a b : Harvest} {P Q : Path → Prop} (ha : a.All P Q)
    (hb : b.All P Q) : (a.append b).All P Q := by
  constructor
  · intro p hp
    rcases List.mem_append.mp hp with hp | hp
    · exact ha.1 p hp
    · exact hb.1 p hp
  · intro p hp
    rcases List.mem_append.mp hp with hp | hp
    · exact ha.2 p hp
    · exact hb.2 p hp

theorem Harvest.all_none (P Q : Path → Prop) : Harvest.none.All P Q := by
  simp [All, none]

def Search.Admits (search : Search) (s : Site) (p : Path) : Prop :=
  ∃ real, s.resolve p = .ok real ∧ some real ≠ search.excluded

theorem scanEntry_all {entry : Path} {P : Path → Prop} (hentry : P entry) {found : Harvest}
    (h : scanEntry s search entry = .ok found) :
    found.All (fun p => P p ∧ search.Admits s p) P := by
  unfold scanEntry at h
  split at h
  · cases h
    exact Harvest.all_none ..
  · obtain ⟨isDirectory, -, h⟩ := Success.bind_eq_ok.mp h
    split at h
    · split at h
      · cases h
        exact Harvest.all_none ..
      · cases h
        simpa [Harvest.All] using hentry
    · split at h
      · obtain ⟨real, hreal, h⟩ := Success.bind_eq_ok.mp h
        split at h
        · cases h
          exact Harvest.all_none ..
        · rename_i hkept
          cases h
          have hadmits : search.Admits s entry := ⟨real, hreal, by simpa using hkept⟩
          simpa [Harvest.All] using And.intro hentry hadmits
      · cases h
        exact Harvest.all_none ..

theorem scanEntries_all {room : Nat} {entries : List Path} {P : Path → Prop}
    (hentries : ∀ p ∈ entries, P p) {found : Harvest}
    (h : scanEntries s search room entries = .ok found) :
    found.All (fun p => P p ∧ search.Admits s p) P := by
  fun_induction scanEntries s search room entries generalizing found with
  | case1 =>
    cases h
    exact Harvest.all_none ..
  | case2 =>
    cases h
    exact Harvest.all_none ..
  | case3 room entry rest ih =>
    obtain ⟨here, hhere, h⟩ := Success.bind_eq_ok.mp h
    obtain ⟨more, hmore, h⟩ := Success.bind_eq_ok.mp h
    cases h
    have hrest : ∀ p ∈ rest, P p := fun p hp => hentries p (List.mem_cons_of_mem _ hp)
    exact (scanEntry_all (hentries entry (List.mem_cons_self ..)) hhere).append
      (ih here hrest hmore)

theorem scanLevel_all {room : Nat} {directories : List Path}
    (hdirectories : ∀ p ∈ directories, AtOrBelow s root p) {found : Harvest}
    (h : scanLevel s search room directories = .ok found) :
    found.All (fun p => Below s root p ∧ search.Admits s p) (Below s root) := by
  fun_induction scanLevel s search room directories generalizing found with
  | case1 =>
    cases h
    exact Harvest.all_none ..
  | case2 =>
    cases h
    exact Harvest.all_none ..
  | case3 room directory rest ih =>
    obtain ⟨entries, hsorted, h⟩ := Success.bind_eq_ok.mp h
    obtain ⟨here, hhere, h⟩ := Success.bind_eq_ok.mp h
    obtain ⟨more, hmore, h⟩ := Success.bind_eq_ok.mp h
    cases h
    have hentries : ∀ p ∈ entries, Below s root p := by
      intro p hp
      obtain ⟨name, hname, rfl⟩ := mem_sortedEntries hsorted p hp
      exact ⟨directory, name, hdirectories directory (List.mem_cons_self ..), hname, rfl⟩
    have hrest : ∀ p ∈ rest, AtOrBelow s root p :=
      fun p hp => hdirectories p (List.mem_cons_of_mem _ hp)
    exact (scanEntries_all hentries hhere).append (ih here hrest hmore)

theorem scanLevels_all {levels room : Nat} {directories : List Path}
    (hdirectories : ∀ p ∈ directories, AtOrBelow s root p) {files : List Path}
    (h : scanLevels s search levels room directories = .ok files) :
    ∀ p ∈ files, Below s root p ∧ search.Admits s p := by
  fun_induction scanLevels s search levels room directories generalizing files with
  | case1 =>
    cases h
    simp
  | case2 =>
    cases h
    simp
  | case3 levels room directories ih =>
    obtain ⟨here, hhere, h⟩ := Success.bind_eq_ok.mp h
    have hall := scanLevel_all hdirectories hhere
    split at h
    · cases h
      exact hall.1
    · obtain ⟨more, hmore, h⟩ := Success.bind_eq_ok.mp h
      cases h
      intro p hp
      rcases List.mem_append.mp hp with hp | hp
      · exact hall.1 p hp
      · exact ih here (fun q hq => (hall.2 q hq).atOrBelow) hmore p hp

/-- Every file found is below the root, and its real path is not that of the one left out. -/
theorem sourceFiles_all {extension : String} {maxDepth maxFiles : Int}
    {exclude : Option Path} {files : List Path}
    (h : sourceFiles s root extension maxDepth maxFiles exclude = .ok files) :
    ∀ p ∈ files, Below s root p ∧ ∀ x, exclude = some x → s.resolve p ≠ s.resolve x := by
  have hroot : ∀ p ∈ [root], AtOrBelow s root p := by
    intro p hp
    exact ⟨[], by simp, by simpa using hp⟩
  unfold sourceFiles at h
  intro p hp
  split at h
  · rename_i x
    obtain ⟨excluded, hexcluded, h⟩ := Success.bind_eq_ok.mp h
    obtain ⟨hbelow, real, hreal, hne⟩ := scanLevels_all hroot h p hp
    refine ⟨hbelow, ?_⟩
    rintro _ ⟨⟩ hsame
    obtain ⟨left, hleft, rfl⟩ := Success.map_eq_ok.mp hexcluded
    rw [hreal, hleft] at hsame
    cases hsame
    exact hne rfl
  · obtain ⟨excluded, -, h⟩ := Success.bind_eq_ok.mp h
    exact ⟨(scanLevels_all hroot h p hp).1, by simp⟩

end SnippetRunner.Project
