import SnippetRunner.Proofs.FileTree.RealPaths
import SnippetRunner.Proofs.Project.Discovery
import SnippetRunner.Proofs.Selection.Context

/-!
When a request comes to nothing. Either the request itself is refused, or one of the searches
for its context is stopped by something on the way: a path that is too long or barred, or a link
that leads round in a loop. Below the level of the project there is nothing that could stop it.
-/
namespace SnippetRunner.Selection

open Source

/-- What is wrong with a request for lines of the file at a path. -/
inductive Refused (s : Site) (request : RunRequest) (d : Descriptor) (p : Path) : Failure → Prop
  | badRange : request.first < 1 ∨ request.last < request.first →
      Refused s request d p (.invalidRequest (.badRange request.first request.last))
  | unreadable {f : Failure} : 1 ≤ request.first → request.first ≤ request.last →
      readSource s p d = .error f → Refused s request d p f
  | pastEnd {source : SourceFile} : 1 ≤ request.first → request.first ≤ request.last →
      readSource s p d = .ok source → (source.length : Int) < request.first →
      Refused s request d p (.invalidRequest (.pastEnd request.first source.path source.length))

inductive Obstructed (s : Site) (limits : Limits) (source : SourceFile) (level : Level) :
    Failure → Prop
  /-- The file or its directory has no real path, where the working directory is no place to
  which the process may go from the top. -/
  | adrift {p : Path} {f : Failure} : level.atLeast .project →
      ¬ s.tree.Grounded s.bars.search s.cwd →
      (p = source.path.parent ∨ p = source.path ∧ ∃ root,
        Project.findRoot s source.path.parent source.descriptor.projectMarkers
          limits.rootSearchDepth = .ok (some root)) →
      Project.Unreal s p f → Obstructed s limits source level f
  /-- A marker of the root cannot be asked for. -/
  | marker {directory : Path} {f : Failure} : level.atLeast .project →
      s.resolve source.path.parent = .ok directory →
      Project.StuckAmong s (Project.markerPlaces
        ((Project.ancestors directory).take (limits.rootSearchDepth + 1).toNat)
        source.descriptor.projectMarkers) f → Obstructed s limits source level f
  /-- An entry that the scan of the project comes to. -/
  | entry {root real : Path} {f : Failure} : level.atLeast .project →
      Project.findRoot s source.path.parent source.descriptor.projectMarkers
        limits.rootSearchDepth = .ok (some root) →
      s.resolve source.path = .ok real →
      Project.ScanBlocked s root real source.descriptor.extension limits.projectMaxDepth
        limits.projectMaxFiles f → Obstructed s limits source level f
  /-- A pattern, a directory or a candidate that the search for libraries comes to. -/
  | library {root : Option Path} {files : List Path}
      {before after : List (Except Failure (List Path))} {batch : Except Failure (List Path)}
      {found : List Path} {f : Failure} : level.atLeast .system →
      surveyProject s limits source level = .ok (root, files) →
      Project.libraryBatches s root source.descriptor.libraryGlobs
        (source.descriptor.systemLibraryDirs.map Path.ofString ++ limits.libraryPaths) =
          before ++ batch :: after →
      Project.gather s before = .ok found → Project.BadBatch s found batch f →
      Obstructed s limits source level f

variable {s : Site} {limits : Limits} {source : SourceFile} {level : Level} {f : Failure}

section Obstructed

theorem Obstructed.atLeast_project (h : Obstructed s limits source level f) :
    level.atLeast .project = true := by
  cases h with
  | adrift hlevel => exact hlevel
  | marker hlevel => exact hlevel
  | entry hlevel => exact hlevel
  | library hlevel => cases level <;> simp_all [Level.atLeast, Level.rank]

/-- What stops a search is a path that cannot be looked at or has no real path, a directory that
may not be read, or a bad pattern. -/
theorem Obstructed.fault (h : Obstructed s limits source level f) : Project.Fault s f := by
  cases h with
  | adrift _ _ _ hunreal => exact Project.Unreal.fault hunreal
  | marker _ _ hstuck => exact hstuck.fault
  | entry _ _ _ hblocked => exact hblocked.fault
  | library _ _ hbatches _ hbad =>
    apply hbad.fault
    rw [hbatches]
    simp

end Obstructed

section Survey

theorem stat_of_readSource {p : Path} {d : Descriptor} (h : readSource s p d = .ok source) :
    ∃ loc e, s.stat p = .ok (loc, e) := by
  unfold readSource at h
  split at h
  · rename_i htext
    exact Site.stat_of_readText htext
  all_goals cases h

/-- In a working directory to which the process may go from the top a file that can be read has a
real path, and so has its directory. -/
theorem not_unreal_of_readSource {d : Descriptor} (hcwd : s.tree.Grounded s.bars.search s.cwd)
    (hread : readSource s source.path d = .ok source) :
    ¬ Project.Unreal s source.path f ∧ ¬ Project.Unreal s source.path.parent f := by
  obtain ⟨loc, e, hstat⟩ := stat_of_readSource hread
  obtain ⟨above, habove⟩ := FileTree.resolve_parent_of_statWithin hcwd hstat
  constructor
  · intro hunreal
    have herror := Project.resolve_eq_error.mpr hunreal
    simp [Site.resolve, FileTree.resolve_of_statWithin hcwd hstat, Except.mapError] at herror
  · intro hunreal
    have herror := Project.resolve_eq_error.mpr hunreal
    simp [Site.resolve, habove, Except.mapError] at herror

theorem surveyProject_eq_error :
    surveyProject s limits source level = .error f ↔ level.atLeast .project = true ∧
      (Project.findRoot s source.path.parent source.descriptor.projectMarkers
          limits.rootSearchDepth = .error f ∨
        ∃ root, Project.findRoot s source.path.parent source.descriptor.projectMarkers
            limits.rootSearchDepth = .ok (some root) ∧
          Project.sourceFiles s root source.descriptor.extension limits.projectMaxDepth
            limits.projectMaxFiles (some source.path) = .error f) := by
  unfold surveyProject
  split
  · rename_i hlevel
    rw [Success.bind_eq_error]
    simp only [hlevel, true_and]
    apply or_congr_right
    constructor
    · rintro ⟨root, hroot, h⟩
      cases root with
      | none => cases h
      | some root =>
        obtain h | ⟨files, -, h⟩ := Success.bind_eq_error.mp h
        · exact ⟨root, hroot, h⟩
        · cases h
    · rintro ⟨root, hroot, h⟩
      exact ⟨some root, hroot, Success.bind_eq_error.mpr (Or.inl h)⟩
  · rename_i hlevel
    simp [hlevel, pure, Except.pure]

/-- The search for the root and the files of a project fails when one of them is stopped. -/
theorem obstructed_of_surveyProject {d : Descriptor}
    (hread : readSource s source.path d = .ok source)
    (h : surveyProject s limits source level = .error f) :
    Obstructed s limits source level f := by
  obtain ⟨hlevel, hroot | ⟨root, hroot, hfiles⟩⟩ := surveyProject_eq_error.mp h
  · obtain hunreal | ⟨directory, hdirectory, hstuck⟩ := Project.findRoot_eq_error.mp hroot
    · exact .adrift hlevel (fun hcwd => (not_unreal_of_readSource hcwd hread).2 hunreal)
        (Or.inl rfl) hunreal
    · exact .marker hlevel hdirectory hstuck
  · cases hown : s.resolve source.path with
    | ok real => exact .entry hlevel hroot hown ((Project.sourceFiles_eq_error hown).mp hfiles)
    | error g =>
      have hunreal := Project.resolve_eq_error.mp hown
      cases hfiles.symm.trans (Project.sourceFiles_of_unreal hunreal)
      exact .adrift hlevel (fun hcwd => (not_unreal_of_readSource hcwd hread).1 hunreal)
        (Or.inr ⟨rfl, root, hroot⟩) hunreal

/-- The searches fail exactly when something stops one of them. -/
theorem survey_eq_error {d : Descriptor} (hread : readSource s source.path d = .ok source) :
    survey s limits source level = .error f ↔ Obstructed s limits source level f := by
  rw [survey, Success.bind_eq_error]
  constructor
  · rintro (h | ⟨⟨root, files⟩, hproject, h⟩)
    · exact obstructed_of_surveyProject hread h
    · dsimp only at h
      split at h
      · rename_i hlevel
        obtain h | ⟨libraries, -, h⟩ := Success.bind_eq_error.mp h
        · obtain ⟨before, batch, after, found, hbatches, hbefore, hbad⟩ :=
            Project.libraries_eq_error.mp h
          exact .library hlevel hproject hbatches hbefore hbad
        · cases h
      · cases h
  · intro h
    cases h with
    | adrift hlevel _ hp hunreal =>
      refine Or.inl (surveyProject_eq_error.mpr ⟨hlevel, ?_⟩)
      obtain rfl | ⟨rfl, root, hroot⟩ := hp
      · exact Or.inl (Project.findRoot_eq_error.mpr (Or.inl hunreal))
      · exact Or.inr ⟨root, hroot, Project.sourceFiles_of_unreal hunreal⟩
    | marker hlevel hdirectory hstuck =>
      refine Or.inl (surveyProject_eq_error.mpr ⟨hlevel, Or.inl ?_⟩)
      exact Project.findRoot_eq_error.mpr (Or.inr ⟨_, hdirectory, hstuck⟩)
    | @entry root _ _ hlevel hroot hown hblocked =>
      refine Or.inl (surveyProject_eq_error.mpr ⟨hlevel, Or.inr ⟨root, hroot, ?_⟩⟩)
      exact (Project.sourceFiles_eq_error hown).mpr hblocked
    | @library root files _ _ _ _ _ hlevel hproject hbatches hbefore hbad =>
      refine Or.inr ⟨(root, files), hproject, ?_⟩
      dsimp only
      rw [if_pos hlevel, Success.bind_eq_error]
      exact Or.inl (Project.libraries_eq_error.mpr ⟨_, _, _, _, hbatches, hbefore, hbad⟩)

end Survey

section Resolve

variable {request : RunRequest} {d : Descriptor} {p : Path}

theorem readSource_error (hnul : p.hasNul = false) (h : readSource s p d = .error f) :
    f = .sourceUnavailable (.missing p) ∨
      ∃ fault, f = .sourceUnavailable (.unreadable p fault) := by
  unfold readSource at h
  split at h
  · cases h
  · cases h
    exact Or.inl rfl
  · rename_i htext
    unfold Site.readText Site.readOctets at htext
    cases hstat : s.stat p with
    | ok found =>
      obtain ⟨loc, e⟩ := found
      simp only [hstat] at htext
      split at htext
      · split at htext <;> simp [Except.map] at htext
      all_goals simp_all [Except.map]
    | error e =>
      simp only [hstat, Except.map, Except.error.injEq] at htext
      exact absurd htext (FileTree.statWithin_error hnul hstat)
  · cases h
    exact Or.inr ⟨_, rfl⟩

/-- A refused request is told what is wrong with it. -/
theorem Refused.fault (hnul : p.hasNul = false) (h : Refused s request d p f) :
    (∃ fault, f = .invalidRequest fault) ∨ f = .sourceUnavailable (.missing p) ∨
      ∃ fault, f = .sourceUnavailable (.unreadable p fault) := by
  cases h with
  | badRange => exact Or.inl ⟨_, rfl⟩
  | unreadable _ _ hread => exact Or.inr (readSource_error hnul hread)
  | pastEnd => exact Or.inl ⟨_, rfl⟩

/-- An accepted request is not refused. -/
theorem Accepted.not_refused (hpath : request.sourcePath s.env = .ok p)
    (haccepted : Accepted s request d source) : ¬ Refused s request d p f := by
  obtain ⟨hstarts, hordered, ⟨q, hq, hread⟩, hinside⟩ := haccepted
  cases hq.symm.trans hpath
  rintro (hrange | ⟨-, -, herror⟩ | ⟨-, -, hread', hpast⟩)
  · omega
  · cases hread.symm.trans herror
  · cases hread.symm.trans hread'
    omega

/-- An accepted request fails exactly when something stops the search for its context. -/
theorem resolve_error_of_accepted (haccepted : Accepted s request d source) :
    resolve s limits request d level = .error f ↔
      Obstructed s limits source (level.lower d.level) f := by
  obtain ⟨p, hp, hread⟩ := haccepted.readable
  obtain ⟨rfl, rfl⟩ := readSource_ok hread
  cases hfile : (level.lower source.descriptor.level).atLeast .file with
  | true =>
    rw [resolve_eq_snippetWithin s limits haccepted hfile, Success.map_eq_error,
      survey_eq_error hread]
  | false =>
    have hnot : ¬ Obstructed s limits source (level.lower source.descriptor.level) f := by
      intro h
      have hproject := h.atLeast_project
      cases hlevel : level.lower source.descriptor.level <;>
        simp_all [Level.atLeast, Level.rank]
    have hsystem : (level.lower source.descriptor.level).atLeast .system = false := by
      cases hlevel : level.lower source.descriptor.level <;>
        simp_all [Level.atLeast, Level.rank]
    rw [resolve_eq_of_accepted s limits haccepted]
    split
    · simp [blockSnippet, hfile, hsystem, hnot, pure, Except.pure, bind, Except.bind]
    · simp [hnot]

theorem resolve_of_refused (hpath : request.sourcePath s.env = .ok p)
    (h : Refused s request d p f) : resolve s limits request d level = .error f := by
  cases h with
  | badRange hrange =>
    simp [resolve, hrange, bind, Except.bind, throw, throwThe, MonadExceptOf.throw]
  | unreadable hstarts hordered hread =>
    simp [resolve, range_not_refused hstarts hordered, hpath, hread, bind, Except.bind]
  | pastEnd hstarts hordered hread hpast =>
    simp [resolve, range_not_refused hstarts hordered, hpath, hread, hpast, bind, Except.bind,
      throw, throwThe, MonadExceptOf.throw]

theorem refused_or_accepted (d : Descriptor) (hpath : request.sourcePath s.env = .ok p) :
    (∃ f, Refused s request d p f) ∨ ∃ source, Accepted s request d source := by
  by_cases hrange : request.first < 1 ∨ request.last < request.first
  · exact Or.inl ⟨_, .badRange hrange⟩
  · have hstarts : 1 ≤ request.first := by omega
    have hordered : request.first ≤ request.last := by omega
    cases hread : readSource s p d with
    | error f => exact Or.inl ⟨f, .unreadable hstarts hordered hread⟩
    | ok source =>
      by_cases hpast : (source.length : Int) < request.first
      · exact Or.inl ⟨_, .pastEnd hstarts hordered hread hpast⟩
      · exact Or.inr ⟨source, hstarts, hordered, ⟨p, hpath, hread⟩, by omega⟩

/-- A request that is resolved was accepted. -/
theorem accepted_of_resolve (h : resolve s limits request d level = .ok r) :
    ∃ source, Accepted s request d source := by
  have hpath : ∃ p, request.sourcePath s.env = .ok p := by
    unfold resolve at h
    dsimp only at h
    split at h
    · cases h
    · obtain ⟨p, hp, -⟩ := Success.bind_eq_ok.mp h
      exact ⟨p, hp⟩
  obtain ⟨p, hp⟩ := hpath
  rcases refused_or_accepted d hp with ⟨f, hrefused⟩ | haccepted
  · cases h.symm.trans (resolve_of_refused hp hrefused)
  · exact haccepted

/-- A request fails exactly when it is refused itself, or it is accepted and something stops
the search for its context. -/
theorem resolve_eq_error (hpath : request.sourcePath s.env = .ok p) :
    resolve s limits request d level = .error f ↔ Refused s request d p f ∨
      ∃ source, Accepted s request d source ∧
        Obstructed s limits source (level.lower d.level) f := by
  constructor
  · intro h
    obtain ⟨g, hrefused⟩ | ⟨source, haccepted⟩ := refused_or_accepted d hpath
    · cases (resolve_of_refused hpath hrefused).symm.trans h
      exact Or.inl hrefused
    · exact Or.inr ⟨source, haccepted, (resolve_error_of_accepted haccepted).mp h⟩
  · rintro (hrefused | ⟨source, haccepted, hobstructed⟩)
    · exact resolve_of_refused hpath hrefused
    · exact (resolve_error_of_accepted haccepted).mpr hobstructed

/-- A request for lines that its file has, and whose file can be read, comes to a snippet
exactly when nothing stops the search for its context, so always below the level of the
project. Nothing stops a search but links that lead round in a loop, a path that is too long,
barred or holds a NUL, a directory of the system that may not be read, and a pattern that is none.
Any other request is refused for its range or its file. -/
theorem resolve_unless_obstructed (s : Site) (limits : Limits) (request : RunRequest)
    (d : Descriptor) (level : Level) (p : Path) (hpath : request.sourcePath s.env = .ok p)
    (hnul : p.hasNul = false) :
    (∀ f, resolve s limits request d level = .error f ↔ Refused s request d p f ∨
      ∃ source, Accepted s request d source ∧
        Obstructed s limits source (level.lower d.level) f) ∧
    (∀ f, Refused s request d p f →
      (∃ fault, f = .invalidRequest fault) ∨ f = .sourceUnavailable (.missing p) ∨
        ∃ fault, f = .sourceUnavailable (.unreadable p fault)) ∧
    ∀ source, Accepted s request d source →
      (∀ f, ¬ Refused s request d p f) ∧
      ((∃ r, resolve s limits request d level = .ok r) ↔
        ∀ f, ¬ Obstructed s limits source (level.lower d.level) f) ∧
      ((level.lower d.level).atLeast .project = false →
        ∃ r, resolve s limits request d level = .ok r) ∧
      ∀ f, Obstructed s limits source (level.lower d.level) f → Project.Fault s f := by
  refine ⟨fun f => resolve_eq_error hpath, fun f hrefused => hrefused.fault hnul, ?_⟩
  intro source haccepted
  have hreturns : (∃ r, resolve s limits request d level = .ok r) ↔
      ∀ f, ¬ Obstructed s limits source (level.lower d.level) f := by
    simp only [← resolve_error_of_accepted haccepted]
    cases resolve s limits request d level <;> simp
  refine ⟨fun f => haccepted.not_refused hpath, hreturns, ?_, fun f h => h.fault⟩
  intro hlevel
  apply hreturns.mpr
  intro f h
  rw [h.atLeast_project] at hlevel
  cases hlevel

end Resolve

section LoopingLink

/-- Beside the file that is asked for there is a link to itself with the suffix of a source. -/
private def loopingLink : Site :=
  ⟨⟨[([".git"], .directory),
    (["a.py"], .file (Text.encodeUtf8 "print(g(4))\n") false), (["b.py"], .link "b.py")]⟩,
    [], [], {}⟩

private def pythonBelowGit : Descriptor :=
  { Language.python with projectMarkers := [".git"] }

private def callOfG : RunRequest where
  file := ⟨.root, ["a.py"]⟩
  first := 1
  last := 1
  scriptDir := ⟨.root, []⟩

private def fileOfG : SourceFile :=
  ⟨⟨.root, ["a.py"]⟩, pythonBelowGit, ["print(g(4))"]⟩

theorem resolve_unless_obstructed_loopingLink :
    callOfG.sourcePath loopingLink.env = .ok ⟨.root, ["a.py"]⟩ ∧
      Accepted loopingLink callOfG pythonBelowGit fileOfG ∧
      Obstructed loopingLink {} fileOfG .project (.linkLoop ⟨.root, ["b.py"]⟩) ∧
      resolve loopingLink {} callOfG pythonBelowGit .project =
        .error (.linkLoop ⟨.root, ["b.py"]⟩) ∧
      ∃ r, resolve loopingLink {} callOfG pythonBelowGit .file = .ok r := by
  have hpath : callOfG.sourcePath loopingLink.env = .ok ⟨.root, ["a.py"]⟩ := by cbv
  have hread : readSource loopingLink ⟨.root, ["a.py"]⟩ pythonBelowGit = .ok fileOfG := by cbv
  have haccepted : Accepted loopingLink callOfG pythonBelowGit fileOfG :=
    ⟨by decide, by decide, ⟨_, hpath, hread⟩, by decide⟩
  have hsurvey : survey loopingLink {} fileOfG .project =
      .error (.linkLoop ⟨.root, ["b.py"]⟩) := by cbv
  have hobstructed := (survey_eq_error hread).mp hsurvey
  have hproject := resolve_unless_obstructed loopingLink {} callOfG pythonBelowGit .project _
    hpath (by decide)
  have hfile := resolve_unless_obstructed loopingLink {} callOfG pythonBelowGit .file _
    hpath (by decide)
  exact ⟨hpath, haccepted, hobstructed,
    (hproject.1 _).mpr (Or.inr ⟨fileOfG, haccepted, hobstructed⟩),
    (hfile.2.2 fileOfG haccepted).2.2.1 (by decide)⟩

end LoopingLink

end SnippetRunner.Selection
