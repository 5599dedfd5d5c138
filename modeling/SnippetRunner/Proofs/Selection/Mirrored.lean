import SnippetRunner.Proofs.Project.Listing
import SnippetRunner.Proofs.Selection.Context

/-!
The files of a project that are kept whole. For a language that mirrors its project every
fragment of the project is a whole file of it, no file is kept twice, and each has its place
below the root; so the places are different from each other.
-/
namespace SnippetRunner.Selection

open Source

namespace ProjectScope

structure WholeFiles (s : ProjectScope) (own : List Fragment) (g : Gathered) : Prop where
  whole : ∀ f ∈ g.fragments, ∃ file ∈ s.readable, f = s.wholeFile file.source
  once : (g.fragments.map (·.origin)).Nodup
  imports : g.imports = own

variable {s : ProjectScope} {own : List Fragment} {g : Gathered}

theorem follow_wholeFiles (hmirror : s.descriptor.projectLayout = .mirrored) (name : String)
    (h : s.WholeFiles own g) : s.WholeFiles own (s.follow g name).state := by
  unfold follow
  split
  · exact ⟨h.whole, h.once, h.imports⟩
  · split
    · exact h
    · rename_i file d hfind
      rw [hmirror]
      dsimp only
      split
      · exact h
      · rename_i hnew
        have hfile : file ∈ s.readable := by
          obtain ⟨f, hf, hfd⟩ := List.exists_of_findSome?_eq_some hfind
          obtain ⟨e, -, heq⟩ := Option.map_eq_some_iff.mp hfd
          cases heq
          exact hf
        refine ⟨?_, ?_, h.imports⟩
        · intro f hf
          rcases List.mem_append.mp hf with hf | hf
          · exact h.whole f hf
          · exact ⟨file, hfile, List.mem_singleton.mp hf⟩
        · rw [List.map_append, List.nodup_append]
          refine ⟨h.once, by simp, ?_⟩
          intro a ha b hb hab
          obtain ⟨f, hf, rfl⟩ := List.mem_map.mp ha
          simp only [wholeFile, List.map_cons, List.map_nil, List.mem_singleton] at hb
          exact hnew (List.any_eq_true.mpr ⟨f, hf, by simp [hab, hb]⟩)

theorem close_wholeFiles (hmirror : s.descriptor.projectLayout = .mirrored)
    (h : s.WholeFiles own g) (wanted : List String) :
    s.WholeFiles own (s.close g wanted).1 := by
  have hrun : s.WholeFiles own
      (Chase.run s.names s.follow (.start g) (sortNames wanted)).state := by
    refine Chase.run_invariant (fun c _ => s.WholeFiles own c.state) ?_ ?_ ?_ _ _ h
    · exact fun c name rest _ hc => hc
    · exact fun c name rest _ _ hc => follow_wholeFiles hmirror name hc
    · exact fun c name rest _ _ hc => hc
  have hperm := List.mergeSort_perm
    (Chase.run s.names s.follow (.start g) (sortNames wanted)).state.fragments s.fragmentLe
  exact ⟨fun f hf => hrun.whole f (hperm.mem_iff.mp hf),
    (hperm.map (·.origin)).nodup_iff.mpr hrun.once, hrun.imports⟩

/-- A file that can be read was found among the files of the project and then read. -/
theorem of_readable {site : Site} {d : Descriptor} {files : List Path} {file : ProjectFile}
    (hfiles : s.files = loadProject site d files) (h : file ∈ s.readable) :
    file.source.path ∈ files ∧ readSource site file.source.path d = .ok file.source ∧
      file.definitions = file.source.definitions := by
  simp only [readable, hfiles, loadProject, List.filterMap_map] at h
  obtain ⟨p, hp, hsome⟩ := List.mem_filterMap.mp h
  simp only [Function.comp] at hsome
  split at hsome
  · rename_i found hread
    cases hsome
    obtain ⟨source, hsource, rfl⟩ := Success.map_eq_ok.mp hread
    have hpath := (readSource_ok hsource).2
    exact ⟨hpath ▸ hp, hpath ▸ hsource, rfl⟩
  · cases hsome

end ProjectScope

structure Placed (s : Site) (fragments : List Fragment) : Prop where
  place : ∀ f ∈ fragments, ∃ names, names ≠ [] ∧ (∀ n ∈ names, Project.Occurs s n) ∧
    f.relativePath = some ⟨.here, names⟩
  once : (fragments.map (·.relativePath)).Nodup

theorem placed_nil (s : Site) : Placed s [] :=
  ⟨by simp, by simp⟩

/-- The files of the project are below its root, and none is the current one. -/
theorem surveyProject_files {s : Site} {limits : Limits} {source : SourceFile} {level : Level}
    {root : Path} {files : List Path}
    (h : surveyProject s limits source level = .ok (some root, files)) :
    ∀ p ∈ files, Project.Below s root p ∧ s.resolve p ≠ s.resolve source.path := by
  unfold surveyProject at h
  split at h
  · obtain ⟨found, -, h⟩ := Success.bind_eq_ok.mp h
    cases found with
    | none => cases h
    | some root' =>
      obtain ⟨files', hfiles, h⟩ := Success.bind_eq_ok.mp h
      cases h
      intro p hp
      obtain ⟨hbelow, hother⟩ := Project.sourceFiles_all hfiles p hp
      exact ⟨hbelow, hother _ rfl⟩
  · cases h

/-- Files that are kept whole have their places, which differ because the files do. -/
theorem ProjectScope.WholeFiles.placed {s : ProjectScope} {own : List Fragment} {g : Gathered}
    {site : Site} (h : s.WholeFiles own g)
    (hbelow : ∀ file ∈ s.readable, Project.Below site s.root file.source.path) :
    Placed site g.fragments := by
  have hplace : ∀ f ∈ g.fragments, ∃ names, names ≠ [] ∧
      (∀ n ∈ names, Project.Occurs site n) ∧
      f.origin = ⟨s.root.anchor, s.root.parts ++ names⟩ ∧
      f.relativePath = some ⟨.here, names⟩ := by
    intro f hf
    obtain ⟨file, hfile, rfl⟩ := h.whole f hf
    exact (hbelow file hfile).relativeTo?
  constructor
  · intro f hf
    obtain ⟨names, hne, hnames, -, hplaced⟩ := hplace f hf
    exact ⟨names, hne, hnames, hplaced⟩
  · have horigin := List.pairwise_map.mp h.once
    refine List.pairwise_map.mpr (horigin.imp_of_mem ?_)
    intro f f' hf hf' hdiffer hsame
    obtain ⟨names, -, -, horigin, hplaced⟩ := hplace f hf
    obtain ⟨names', -, -, horigin', hplaced'⟩ := hplace f' hf'
    rw [hplaced, hplaced'] at hsame
    cases hsame
    exact hdiffer (horigin.trans horigin'.symm)

def KeepsFile (s : Site) (d : Descriptor) (f : Fragment) : Prop :=
  ∃ file, readSource s f.origin d = .ok file ∧ f.text = file.text

theorem ProjectScope.WholeFiles.keepsFile {s : ProjectScope} {own : List Fragment} {g : Gathered}
    {site : Site} {d : Descriptor} {files : List Path} (h : s.WholeFiles own g)
    (hfiles : s.files = loadProject site d files) : ∀ f ∈ g.fragments, KeepsFile site d f := by
  intro f hf
  obtain ⟨file, hfile, rfl⟩ := h.whole f hf
  exact ⟨file.source, (of_readable hfiles hfile).2.1, rfl⟩

def scopeAround (s : Site) (source : SourceFile) (first last : Int) (root : Path)
    (files : List Path) : ProjectScope :=
  ⟨source.descriptor, root, surroundingOf source first last,
    loadProject s source.descriptor files⟩

theorem contextAround_wholeFiles (s : Site) (source : SourceFile) (first last : Int)
    (root : Path) (files : List Path)
    (hmirror : source.descriptor.projectLayout = .mirrored) :
    (scopeAround s source first last root files).WholeFiles
      (ProjectScope.importFragments source first last)
      (contextAround s source first last (some root) files).gathered := by
  have hstart : ∀ chosen, (scopeAround s source first last root files).WholeFiles
      (ProjectScope.importFragments source first last)
      ⟨chosen, [], ProjectScope.importFragments source first last⟩ :=
    fun chosen => ⟨by simp, by simp, rfl⟩
  exact ProjectScope.close_wholeFiles hmirror (hstart _) _

/-- For a language that mirrors its project the imports gathered are those of the file, and
what is taken from the project is marked as such. -/
theorem contextAround_mirrored (s : Site) (source : SourceFile) (first last : Int)
    (root : Option Path) (files : List Path)
    (hmirror : source.descriptor.projectLayout = .mirrored) :
    (∀ f ∈ (contextAround s source first last root files).gathered.imports,
        f.provenance = .import_) ∧
      ∀ f ∈ (contextAround s source first last root files).gathered.fragments,
        f.provenance = .projectScope := by
  have hown := importFragments_provenance source first last
  cases root with
  | none => exact ⟨hown, by simp [contextAround]⟩
  | some root =>
    have hwhole := contextAround_wholeFiles s source first last root files hmirror
    refine ⟨hwhole.imports ▸ hown, ?_⟩
    intro f hf
    obtain ⟨file, -, rfl⟩ := hwhole.whole f hf
    rfl

/-- A request that is resolved is that of a line or of a block of a file that was read. -/
theorem resolve_cases {s : Site} {limits : Limits} {request : RunRequest} {d : Descriptor}
    {level : Level} {r : Resolution} (h : resolve s limits request d level = .ok r) :
    ∃ p source first last, request.sourcePath s.env = .ok p ∧ readSource s p d = .ok source ∧
      ((level.lower d.level).atLeast .bloc = false ∧
          r = ⟨lineSnippet source first last (level.lower d.level), []⟩ ∨
        blockSnippet s limits source first last (level.lower d.level) = .ok r) := by
  unfold resolve at h
  dsimp only at h
  split at h
  · cases h
  · obtain ⟨p, hp, h⟩ := Success.bind_eq_ok.mp h
    obtain ⟨source, hread, h⟩ := Success.bind_eq_ok.mp h
    split at h
    · cases h
    · split at h
      · exact ⟨p, source, _, _, hp, hread, Or.inr h⟩
      · rename_i hline
        cases h
        exact ⟨p, source, _, _, hp, hread, Or.inl ⟨by simpa using hline, rfl⟩⟩

theorem blockSnippet_below_file {s : Site} {limits : Limits} {source : SourceFile}
    {first last : Int} {level : Level} {r : Resolution} (hlevel : level.atLeast .file = false)
    (h : blockSnippet s limits source first last level = .ok r) :
    r.snippet.descriptor = source.descriptor ∧ r.snippet.projectRoot = none ∧
      r.snippet.ofProvenance .projectScope = [] := by
  have hsystem : level.atLeast .system = false := by
    cases level <;> simp_all [Level.atLeast, Level.rank]
  simp only [blockSnippet, hlevel, hsystem, Bool.false_eq_true, if_false] at h
  obtain ⟨context, hcontext, h⟩ := Success.bind_eq_ok.mp h
  obtain ⟨libraries, -, h⟩ := Success.bind_eq_ok.mp h
  cases hcontext
  cases h
  have himports : ∀ f ∈ (if level.atLeast .import_ then
      ProjectScope.importFragments source first last else []), f.provenance = .import_ := by
    split
    · exact importFragments_provenance source first last
    · simp
  obtain ⟨-, hproject, -⟩ := ofProvenance_snippetWithin source first last level libraries
    ⟨⟨[], [], _⟩, none, [], []⟩ himports (by simp)
  exact ⟨rfl, rfl, hproject⟩

/-- For a language that mirrors its project the fragments of the project, if there are any,
are whole files that were gathered below its root. -/
theorem resolve_wholeFiles {s : Site} {limits : Limits} {request : RunRequest} {d : Descriptor}
    {level : Level} {r : Resolution} (hmirror : d.projectLayout = .mirrored)
    (h : resolve s limits request d level = .ok r) :
    r.snippet.descriptor = d ∧ (r.snippet.ofProvenance .projectScope = [] ∨
      ∃ (scope : ProjectScope) (own : List Fragment) (g : Gathered) (files : List Path),
        scope.WholeFiles own g ∧ scope.files = loadProject s d files ∧
        (∀ p ∈ files, Project.Below s scope.root p) ∧
        r.snippet.ofProvenance .projectScope = g.fragments) := by
  obtain ⟨p, source, first, last, -, hread, hr⟩ := resolve_cases h
  obtain rfl := (readSource_ok hread).1
  generalize level.lower source.descriptor.level = lowered at hr
  rcases hr with ⟨-, rfl⟩ | hr
  · exact ⟨rfl, Or.inl rfl⟩
  · cases hfile : lowered.atLeast .file with
    | false =>
      obtain ⟨hd, -, hnone⟩ := blockSnippet_below_file hfile hr
      exact ⟨hd, Or.inl hnone⟩
    | true =>
      rw [blockSnippet_eq s limits source first last lowered hfile] at hr
      obtain ⟨found, hsurvey, rfl⟩ := Success.map_eq_ok.mp hr
      refine ⟨rfl, ?_⟩
      obtain ⟨himports, hfragments⟩ := contextAround_mirrored s source first last found.root
        found.files hmirror
      obtain ⟨-, hproject, -⟩ := ofProvenance_snippetWithin source first last lowered
        found.libraries _ himports hfragments
      have hsearched := surveyProject_of_survey hsurvey
      cases hroot : found.root with
      | none =>
        rw [hroot] at hproject
        exact Or.inl (by simpa [contextAround, hroot] using hproject)
      | some root =>
        rw [hroot] at hsearched hproject
        exact Or.inr ⟨scopeAround s source first last root found.files, _, _, found.files,
          contextAround_wholeFiles s source first last root found.files hmirror, rfl,
          fun p hp => (surveyProject_files hsearched p hp).1, hproject⟩

/-- For a language that mirrors its project the fragments of the project have their places. -/
theorem resolve_placed {s : Site} {limits : Limits} {request : RunRequest} {d : Descriptor}
    {level : Level} {r : Resolution} (hmirror : d.projectLayout = .mirrored)
    (h : resolve s limits request d level = .ok r) :
    r.snippet.descriptor = d ∧ Placed s (r.snippet.ofProvenance .projectScope) := by
  obtain ⟨hd, hproject⟩ := resolve_wholeFiles hmirror h
  refine ⟨hd, ?_⟩
  rcases hproject with hnone | ⟨scope, own, g, files, hwhole, hfiles, hbelow, hproject⟩
  · exact hnone ▸ placed_nil s
  · rw [hproject]
    exact hwhole.placed fun file hfile =>
      hbelow _ (ProjectScope.of_readable hfiles hfile).1

/-- And each of them keeps the whole of its file. -/
theorem resolve_keepsFile {s : Site} {limits : Limits} {request : RunRequest} {d : Descriptor}
    {level : Level} {r : Resolution} (hmirror : d.projectLayout = .mirrored)
    (h : resolve s limits request d level = .ok r) :
    ∀ f ∈ r.snippet.ofProvenance .projectScope, KeepsFile s d f := by
  rcases (resolve_wholeFiles hmirror h).2 with hnone |
    ⟨scope, own, g, files, hwhole, hfiles, -, hproject⟩
  · rw [hnone]
    simp
  · rw [hproject]
    exact hwhole.keepsFile hfiles

end SnippetRunner.Selection
