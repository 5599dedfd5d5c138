import SnippetRunner.Proofs.Project.Bounds
import SnippetRunner.Proofs.Project.Roots
import SnippetRunner.Proofs.Selection.Mirrored

/-!
The project of a snippet and the places of its fragments. The root is the nearest directory with a
marker at or above the file that is asked for, and a fragment that keeps a whole file has the place
that leads from the root to that file.
-/
namespace SnippetRunner.Selection

open Source

variable {s : Site} {limits : Limits} {request : RunRequest} {d : Descriptor} {level : Level}
  {r : Resolution}

/-- What a snippet says of its project comes from the search around the file that was read. -/
theorem resolve_project (h : resolve s limits request d level = .ok r) :
    ∃ p source first last root files, request.sourcePath s.env = .ok p ∧
      readSource s p d = .ok source ∧
      surveyProject s limits source (level.lower d.level) = .ok (root, files) ∧
      r.snippet.descriptor = d ∧ r.snippet.projectRoot = root ∧
      r.snippet.ofProvenance .projectScope =
        (contextAround s source first last root files).gathered.fragments := by
  obtain ⟨p, source, first, last, hp, hread, hr⟩ := resolve_cases h
  obtain rfl := (readSource_ok hread).1
  generalize level.lower source.descriptor.level = lowered at hr ⊢
  have hbelow : lowered.atLeast .file = false →
      surveyProject s limits source lowered = .ok (none, []) := by
    intro hfile
    have hproject : lowered.atLeast .project = false := by
      cases lowered <;> simp_all [Level.atLeast, Level.rank]
    simp [surveyProject, hproject, pure, Except.pure]
  cases hfile : lowered.atLeast .file with
  | false =>
    refine ⟨p, source, first, last, none, [], hp, hread, hbelow hfile, ?_⟩
    rcases hr with ⟨-, rfl⟩ | hr
    · exact ⟨rfl, rfl, rfl⟩
    · exact blockSnippet_below_file hfile hr
  | true =>
    rcases hr with ⟨hbloc, -⟩ | hr
    · cases lowered <;> simp_all [Level.atLeast, Level.rank]
    · rw [blockSnippet_eq s limits source first last lowered hfile] at hr
      obtain ⟨found, hsurvey, rfl⟩ := Success.map_eq_ok.mp hr
      have hsearched := surveyProject_of_survey hsurvey
      refine ⟨p, source, first, last, _, _, hp, hread, hsearched, rfl,
        contextAround_root .., ?_⟩
      cases hlayout : source.descriptor.projectLayout with
      | mirrored =>
        obtain ⟨himports, hfragments⟩ := contextAround_mirrored s source first last found.root
          found.files hlayout
        exact (ofProvenance_snippetWithin source first last lowered found.libraries _ himports
          hfragments).2.1
      | inline =>
        obtain ⟨himports, hfragments⟩ := contextAround_inline s source first last found.root
          found.files hlayout (surveyProject_root_none hsearched)
        exact (ofProvenance_snippetWithin source first last lowered found.libraries _ himports
          hfragments).2.1

/-- The root of a snippet is the nearest directory with a marker, within the bound, from the real
directory of its file upward; if there is none, no such directory has a marker or the level is
below that of the project. -/
theorem resolve_root (h : resolve s limits request d level = .ok r) :
    ∃ p, request.sourcePath s.env = .ok p ∧
      match r.snippet.projectRoot with
      | some root => ∃ directory, s.resolve p.parent = .ok directory ∧
          Project.NearestMarked s d.projectMarkers limits.rootSearchDepth directory root
      | none => (level.lower d.level).atLeast .project = false ∨
          ∃ directory, s.resolve p.parent = .ok directory ∧
            ∀ steps : Nat, (steps : Int) ≤ limits.rootSearchDepth →
              Project.Unmarked s d.projectMarkers (Project.above directory steps) := by
  obtain ⟨p, source, first, last, root, files, hp, hread, hsurvey, -, hroot, -⟩ :=
    resolve_project h
  obtain ⟨hd, rfl⟩ := readSource_ok hread
  refine ⟨source.path, hp, ?_⟩
  rw [hroot]
  unfold surveyProject at hsurvey
  split at hsurvey
  · obtain ⟨found, hfound, hsurvey⟩ := Success.bind_eq_ok.mp hsurvey
    rw [hd] at hfound
    cases found with
    | none =>
      cases hsurvey
      exact Or.inr (Project.findRoot_none hfound)
    | some nearest =>
      obtain ⟨files, -, hsurvey⟩ := Success.bind_eq_ok.mp hsurvey
      cases hsurvey
      exact Project.findRoot_nearest hfound
  · rename_i hlevel
    cases hsurvey
    exact Or.inl (by simpa using hlevel)

theorem surveyProject_names {source : SourceFile} {root : Path} {files : List Path}
    (h : surveyProject s limits source level = .ok (some root, files)) :
    ∀ p ∈ files, ∃ names, names ≠ [] ∧ (∀ n ∈ names, Project.isHidden n = false) ∧
      p = ⟨root.anchor, root.parts ++ names⟩ := by
  unfold surveyProject at h
  split at h
  · obtain ⟨found, -, h⟩ := Success.bind_eq_ok.mp h
    cases found with
    | none => cases h
    | some nearest =>
      obtain ⟨found, hfound, h⟩ := Success.bind_eq_ok.mp h
      cases h
      exact Project.sourceFiles_names hfound
  · cases h

theorem ne_dots_of_not_hidden {name : String} (h : Project.isHidden name = false) :
    name ≠ ".." := by
  have hdots : Project.isHidden ".." = true := by cbv
  rintro rfl
  rw [hdots] at h
  cases h

/-- A fragment that keeps a whole file has the place that leads from the root of the project down
to that file. -/
theorem resolve_mirrored_places (hmirror : d.projectLayout = .mirrored)
    (h : resolve s limits request d level = .ok r) :
    ∀ f ∈ r.snippet.ofProvenance .projectScope, ∃ root names,
      r.snippet.projectRoot = some root ∧ names ≠ [] ∧ ".." ∉ names ∧
        f.relativePath = some ⟨.here, names⟩ ∧ root.join ⟨.here, names⟩ = f.origin := by
  obtain ⟨p, source, first, last, root, files, -, hread, hsurvey, -, hroot, hproject⟩ :=
    resolve_project h
  obtain rfl := (readSource_ok hread).1
  rw [hroot, hproject]
  intro f hf
  cases root with
  | none => cases hf
  | some root =>
    have hwhole := contextAround_wholeFiles s source first last root files hmirror
    obtain ⟨file, hfile, rfl⟩ := hwhole.whole f hf
    have hfound := (ProjectScope.of_readable rfl hfile).1
    obtain ⟨names, hne, hnames, hpath⟩ := surveyProject_names hsurvey _ hfound
    refine ⟨root, names, rfl, hne, fun hdots => ne_dots_of_not_hidden (hnames _ hdots) rfl, ?_, ?_⟩
    · simp [ProjectScope.wholeFile, scopeAround, hpath, Path.relativeTo?]
    · simp [ProjectScope.wholeFile, hpath, Path.join, Path.isAbsolute]

/-- A fragment that is copied has no place of its own. -/
theorem resolve_inline_places (hinline : d.projectLayout = .inline)
    (h : resolve s limits request d level = .ok r) :
    ∀ f ∈ r.snippet.ofProvenance .projectScope, f.relativePath = none := by
  obtain ⟨p, source, first, last, root, files, -, hread, hsurvey, -, -, hproject⟩ :=
    resolve_project h
  obtain rfl := (readSource_ok hread).1
  rw [hproject]
  intro f hf
  obtain ⟨hits, -, hfragments, -⟩ := contextAround_exact s source first last root files hinline
    (surveyProject_root_none hsurvey)
  obtain ⟨hit, -, rfl⟩ := List.mem_map.mp (hfragments.mem_iff.mp hf)
  rfl

end SnippetRunner.Selection
