import Mathlib
import SnippetRunner.Language.BuiltIn
import SnippetRunner.Proofs.Selection.InProject
import SnippetRunner.Proofs.Success
import SnippetRunner.Selection.Resolve

/-!
The context of a selection. For a language whose definitions are copied, a request that is
not refused is resolved to exactly the needed names: one definition of the file or of the
project for each that stands for something, a miss for each other one, and the imports of
the files that something was copied from.
-/
namespace SnippetRunner.Selection

open Source

/-- The range of the request is one of lines of its file, which can be read. -/
structure Accepted (s : Site) (request : RunRequest) (d : Descriptor)
    (source : SourceFile) : Prop where
  starts : 1 ≤ request.first
  ordered : request.first ≤ request.last
  readable : ∃ p, request.sourcePath s.env = .ok p ∧ readSource s p d = .ok source
  inside : request.first ≤ (source.length : Int)

/-- What there is around a file: the root and the files of its project, and libraries. -/
structure Survey where
  root : Option Path
  files : List Path
  libraries : List Path

/-- The root of the project of a file and its other files; a level below the project's
looks for neither. -/
def surveyProject (s : Site) (limits : Limits) (source : SourceFile) (level : Level) :
    Except Failure (Option Path × List Path) := do
  let d := source.descriptor
  if level.atLeast .project then
    match ← Project.findRoot s source.path.parent d.projectMarkers limits.rootSearchDepth with
    | none => return (none, [])
    | some root =>
      let files ← Project.sourceFiles s root d.extension limits.projectMaxDepth
        limits.projectMaxFiles (some source.path)
      return (some root, files)
  else return (none, [])

/-- All the searches of a level, each of which may fail. -/
def survey (s : Site) (limits : Limits) (source : SourceFile) (level : Level) :
    Except Failure Survey := do
  let (root, files) ← surveyProject s limits source level
  let d := source.descriptor
  let libraries ←
    if level.atLeast .system then
      Project.libraries s root d.libraryGlobs
        (d.systemLibraryDirs.map Path.ofString ++ limits.libraryPaths) limits.projectMaxFiles
    else pure []
  return ⟨root, files, libraries⟩

def surroundingOf (source : SourceFile) (first last : Int) : Surrounding :=
  ⟨source.descriptor.blockStyle, source.definitions, first, last⟩

def Uses (d : Descriptor) (selection : String) (n : String) : Prop :=
  n ∈ identifiers d.blockStyle selection ∧ n ∉ d.definedNames selection

/-- Some fragments with those left out whose text, but for blanks around it, is that of
another one. -/
structure OnceEach (all kept : List Fragment) : Prop where
  sublist : kept.Sublist all
  distinct : (kept.map fun f => Text.strip f.text).Nodup
  complete : ∀ f ∈ all, ∃ g ∈ kept, Text.strip g.text = Text.strip f.text

/-- A snippet whose context is exactly that of the needed names. -/
structure HoldsContext (source : SourceFile) (first last : Int) (files : List Loaded)
    (wants : String → Prop) (snippet : Snippet) (chosen : List Definition) (hits : List Hit)
    (missing : List String) : Prop where
  exact : ProjectScope.Exact (surroundingOf source first last) files wants chosen hits missing
  fileScope : snippet.ofProvenance .fileScope = chosen.map (fileFragment source)
  projectScope : (snippet.ofProvenance .projectScope).Perm (hits.map Hit.fragment)
  imports : OnceEach (ProjectScope.importFragments source first last ++ hits.flatMap Hit.imports)
    (snippet.ofProvenance .import_)
  ascending : NameOrder.Ascending missing
  misses : snippet.misses = missing.map fun n => ⟨n, snippet.level⟩

theorem readSource_ok {s : Site} {p : Path} {d : Descriptor} {source : SourceFile}
    (h : readSource s p d = .ok source) : source.descriptor = d ∧ source.path = p := by
  unfold readSource at h
  split at h
  · cases h
    exact ⟨rfl, rfl⟩
  all_goals cases h

theorem mem_wantedNames (d : Descriptor) (selection n : String) :
    Uses d selection n ↔ n ∈ wantedNames d selection := by
  simp [Uses, wantedNames]

section Dedupe

private theorem dedupe_go (seen : List String) (all : List Fragment) :
    (dedupe.go seen all).Sublist all ∧
      ((dedupe.go seen all).map fun f => Text.strip f.text).Nodup ∧
      (∀ f ∈ dedupe.go seen all, Text.strip f.text ∉ seen) ∧
      ∀ f ∈ all, Text.strip f.text ∈ seen ∨
        ∃ g ∈ dedupe.go seen all, Text.strip g.text = Text.strip f.text := by
  induction all generalizing seen with
  | nil => simp [dedupe.go]
  | cons f rest ih =>
    by_cases hseen : Text.strip f.text ∈ seen
    · obtain ⟨hsub, hnodup, hfresh, hall⟩ := ih seen
      have heq : dedupe.go seen (f :: rest) = dedupe.go seen rest := by
        simp [dedupe.go, hseen]
      rw [heq]
      refine ⟨hsub.cons f, hnodup, hfresh, ?_⟩
      intro g hg
      rcases List.mem_cons.mp hg with rfl | hg
      · exact Or.inl hseen
      · exact hall g hg
    · obtain ⟨hsub, hnodup, hfresh, hall⟩ := ih (Text.strip f.text :: seen)
      have heq : dedupe.go seen (f :: rest) =
          f :: dedupe.go (Text.strip f.text :: seen) rest := by
        simp [dedupe.go, hseen]
      rw [heq]
      refine ⟨hsub.cons_cons f, ?_, ?_, ?_⟩
      · rw [List.map_cons, List.nodup_cons]
        refine ⟨?_, hnodup⟩
        intro hmem
        obtain ⟨g, hg, hkey⟩ := List.mem_map.mp hmem
        exact hfresh g hg (hkey ▸ List.mem_cons_self ..)
      · intro g hg
        rcases List.mem_cons.mp hg with rfl | hg
        · exact hseen
        · exact fun hmem => hfresh g hg (List.mem_cons_of_mem _ hmem)
      · intro g hg
        rcases List.mem_cons.mp hg with rfl | hg
        · exact Or.inr ⟨g, List.mem_cons_self .., rfl⟩
        · rcases hall g hg with hmem | ⟨k, hk, hkey⟩
          · rcases List.mem_cons.mp hmem with hkey | hmem
            · exact Or.inr ⟨f, List.mem_cons_self .., hkey.symm⟩
            · exact Or.inl hmem
          · exact Or.inr ⟨k, List.mem_cons_of_mem _ hk, hkey⟩

theorem dedupe_onceEach (all : List Fragment) : OnceEach all (dedupe all) := by
  obtain ⟨hsub, hnodup, -, hall⟩ := dedupe_go [] all
  exact ⟨hsub, hnodup, fun f hf => (hall f hf).resolve_left (by simp)⟩

end Dedupe

theorem range_not_refused {first last : Int} (hstarts : 1 ≤ first) (hordered : first ≤ last) :
    (decide (first < 1) || decide (last < first)) = false := by
  simp only [Bool.or_eq_false_iff, decide_eq_false_iff_not]
  omega

/-- An accepted request is that of a line or of a block of its file. -/
theorem resolve_eq_of_accepted (s : Site) (limits : Limits) {request : RunRequest}
    {d : Descriptor} {level : Level} {source : SourceFile} (h : Accepted s request d source) :
    resolve s limits request d level =
      if (level.lower d.level).atLeast .bloc then
        blockSnippet s limits source request.first (min request.last source.length)
          (level.lower d.level)
      else .ok ⟨lineSnippet source request.first (min request.last source.length)
        (level.lower d.level), []⟩ := by
  obtain ⟨hstarts, hordered, ⟨p, hp, hread⟩, hinside⟩ := h
  have hend : ¬ request.first > (source.length : Int) := by omega
  simp [resolve, range_not_refused hstarts hordered, hp, hread, hend, bind, Except.bind, pure,
    Except.pure]

/-- An accepted request above the level of a line is that of a block of its file. -/
theorem resolve_of_accepted (s : Site) (limits : Limits) {request : RunRequest}
    {d : Descriptor} {level : Level} {source : SourceFile}
    (h : Accepted s request d source) (hlevel : (level.lower d.level).atLeast .bloc = true) :
    resolve s limits request d level = blockSnippet s limits source request.first
      (min request.last source.length) (level.lower d.level) := by
  rw [resolve_eq_of_accepted s limits h, if_pos hlevel]

def contextAround (s : Site) (source : SourceFile) (first last : Int) (root : Option Path)
    (files : List Path) : Context :=
  let around := surroundingOf source first last
  let own := ProjectScope.importFragments source first last
  let closed := around.close [] (wantedNames source.descriptor (source.rangeText first last))
  match root with
  | none => ⟨⟨closed.1, [], own⟩, none, closed.2, []⟩
  | some root =>
    let scope : ProjectScope :=
      ⟨source.descriptor, root, around, loadProject s source.descriptor files⟩
    let (gathered, missing, passedOver) := scope.close ⟨closed.1, [], own⟩ closed.2
    ⟨gathered, some root, missing, passedOver⟩

def snippetWithin (source : SourceFile) (first last : Int) (level : Level)
    (libraries : List Path) (context : Context) : Snippet where
  descriptor := source.descriptor
  level := level
  fragments :=
    dedupe context.gathered.imports ++ context.gathered.fragments ++
      (context.gathered.fileDefinitions.mergeSort definitionLe).map (fileFragment source) ++
      [⟨source.rangeText first last, .selection, source.path, first, none⟩]
  libraries := libraries
  projectRoot := context.root
  misses := (sortNames context.missing).map fun n => ⟨n, level⟩

theorem findContext_eq (s : Site) (limits : Limits) (source : SourceFile) (first last : Int)
    (level : Level) :
    findContext s limits source first last level (source.rangeText first last)
        (ProjectScope.importFragments source first last) =
      (surveyProject s limits source level).map fun found =>
        contextAround s source first last found.1 found.2 := by
  cases hproject : level.atLeast .project with
  | false =>
    simp [findContext, surveyProject, hproject, contextAround, surroundingOf, pure, Except.pure,
      Except.map]
  | true =>
    cases hroot : Project.findRoot s source.path.parent source.descriptor.projectMarkers
        limits.rootSearchDepth with
    | error f =>
      simp [findContext, surveyProject, hproject, hroot, bind, Except.bind, Except.map]
    | ok root =>
      cases root with
      | none =>
        simp [findContext, surveyProject, hproject, hroot, contextAround, surroundingOf, bind,
          Except.bind, pure, Except.pure, Except.map]
      | some root =>
        cases hfiles : Project.sourceFiles s root source.descriptor.extension
            limits.projectMaxDepth limits.projectMaxFiles (some source.path) with
        | error f =>
          simp [findContext, surveyProject, hproject, hroot, hfiles, bind, Except.bind,
            Except.map]
        | ok files =>
          simp [findContext, surveyProject, hproject, hroot, hfiles, contextAround,
            surroundingOf, bind, Except.bind, pure, Except.pure, Except.map]

theorem contextAround_root (s : Site) (source : SourceFile) (first last : Int)
    (root : Option Path) (files : List Path) :
    (contextAround s source first last root files).root = root := by
  cases root <;> rfl

/-- The searches alone decide whether a block is resolved, and to what. -/
theorem blockSnippet_eq (s : Site) (limits : Limits) (source : SourceFile) (first last : Int)
    (level : Level) (hfile : level.atLeast .file = true) :
    blockSnippet s limits source first last level =
      (survey s limits source level).map fun found =>
        let context := contextAround s source first last found.root found.files
        ⟨snippetWithin source first last level found.libraries context, context.passedOver⟩ := by
  have himport : level.atLeast .import_ = true := by
    cases level <;> simp_all [Level.atLeast, Level.rank]
  simp only [blockSnippet, hfile, himport, if_true, findContext_eq, survey]
  cases surveyProject s limits source level with
  | error f => rfl
  | ok found =>
    cases hsystem : level.atLeast .system with
    | false => simp [Except.map, bind, Except.bind, pure, Except.pure, contextAround_root,
          snippetWithin]
    | true =>
      cases hlibraries : Project.libraries s found.1 source.descriptor.libraryGlobs
          (source.descriptor.systemLibraryDirs.map Path.ofString ++ limits.libraryPaths)
          limits.projectMaxFiles with
      | error f => simp [hlibraries, Except.map, bind, Except.bind, contextAround_root]
      | ok libraries =>
        simp [hlibraries, Except.map, bind, Except.bind, pure, Except.pure, contextAround_root,
          snippetWithin]

section Provenance

theorem filter_provenance_eq_self {fragments : List Fragment} {p : Provenance}
    (h : ∀ f ∈ fragments, f.provenance = p) :
    fragments.filter (fun f => f.provenance == p) = fragments := by
  apply List.filter_eq_self.mpr
  intro f hf
  simp [h f hf]

theorem filter_provenance_eq_nil {fragments : List Fragment} {p q : Provenance}
    (hpq : p ≠ q) (h : ∀ f ∈ fragments, f.provenance = p) :
    fragments.filter (fun f => f.provenance == q) = [] := by
  apply List.filter_eq_nil_iff.mpr
  intro f hf
  simp [h f hf, hpq]

/-- The parts of a snippet can be told apart by where their fragments come from. -/
theorem ofProvenance_snippetWithin (source : SourceFile) (first last : Int) (level : Level)
    (libraries : List Path) (context : Context)
    (himports : ∀ f ∈ context.gathered.imports, f.provenance = .import_)
    (hproject : ∀ f ∈ context.gathered.fragments, f.provenance = .projectScope) :
    (snippetWithin source first last level libraries context).ofProvenance .import_ =
        dedupe context.gathered.imports ∧
      (snippetWithin source first last level libraries context).ofProvenance .projectScope =
        context.gathered.fragments ∧
      (snippetWithin source first last level libraries context).ofProvenance .fileScope =
        (context.gathered.fileDefinitions.mergeSort definitionLe).map (fileFragment source) ∧
      (snippetWithin source first last level libraries context).code =
        source.rangeText first last := by
  have himports' : ∀ f ∈ dedupe context.gathered.imports, f.provenance = .import_ := fun f hf =>
    himports f ((dedupe_onceEach _).sublist.subset hf)
  have hfile : ∀ f ∈ (context.gathered.fileDefinitions.mergeSort definitionLe).map
      (fileFragment source), f.provenance = .fileScope := by
    intro f hf
    obtain ⟨d, -, rfl⟩ := List.mem_map.mp hf
    rfl
  simp only [Snippet.code, Snippet.ofProvenance, snippetWithin, List.filter_append]
  refine ⟨?_, ?_, ?_, ?_⟩
  · rw [filter_provenance_eq_self himports', filter_provenance_eq_nil (by decide) hproject,
      filter_provenance_eq_nil (by decide) hfile]
    simp
  · rw [filter_provenance_eq_nil (by decide) himports', filter_provenance_eq_self hproject,
      filter_provenance_eq_nil (by decide) hfile]
    simp
  · rw [filter_provenance_eq_nil (by decide) himports',
      filter_provenance_eq_nil (by decide) hproject, filter_provenance_eq_self hfile]
    simp
  · rw [filter_provenance_eq_nil (by decide) himports',
      filter_provenance_eq_nil (by decide) hproject, filter_provenance_eq_nil (by decide) hfile]
    simp [Text.joinLines]

end Provenance

theorem importFragments_provenance (file : SourceFile) (first last : Int) :
    ∀ f ∈ ProjectScope.importFragments file first last, f.provenance = .import_ := by
  intro f hf
  obtain ⟨i, -, rfl⟩ := List.mem_map.mp hf
  rfl

/-- Closing around a file is exact, whether or not there is a project to search. -/
theorem contextAround_exact (s : Site) (source : SourceFile) (first last : Int)
    (root : Option Path) (files : List Path)
    (hinline : source.descriptor.projectLayout = .inline) (hroot : root = none → files = []) :
    ∃ hits, ProjectScope.Exact (surroundingOf source first last)
        (loadProject s source.descriptor files)
        (Uses source.descriptor (source.rangeText first last))
        (contextAround s source first last root files).gathered.fileDefinitions hits
        (contextAround s source first last root files).missing ∧
      (contextAround s source first last root files).gathered.fragments.Perm
        (hits.map Hit.fragment) ∧
      (contextAround s source first last root files).gathered.imports =
        ProjectScope.importFragments source first last ++ hits.flatMap Hit.imports := by
  have hwants := mem_wantedNames source.descriptor (source.rangeText first last)
  have hclosing := Surrounding.close_closing (surroundingOf source first last) []
    (wantedNames source.descriptor (source.rangeText first last)) (.nil _)
  cases root with
  | none =>
    rw [hroot rfl]
    exact ⟨[], ProjectScope.exact_of_closing hwants hclosing, by simp [contextAround],
      by simp [contextAround]⟩
  | some root =>
    let scope : ProjectScope := ⟨source.descriptor, root, surroundingOf source first last,
      loadProject s source.descriptor files⟩
    exact scope.close_exact hinline rfl (ProjectScope.importFragments source first last) hwants
      hclosing

/-- For a language whose definitions are copied what is gathered is marked as what it is. -/
theorem contextAround_inline (s : Site) (source : SourceFile) (first last : Int)
    (root : Option Path) (files : List Path)
    (hinline : source.descriptor.projectLayout = .inline) (hroot : root = none → files = []) :
    (∀ f ∈ (contextAround s source first last root files).gathered.imports,
        f.provenance = .import_) ∧
      ∀ f ∈ (contextAround s source first last root files).gathered.fragments,
        f.provenance = .projectScope := by
  obtain ⟨hits, -, hfragments, himports⟩ := contextAround_exact s source first last root files
    hinline hroot
  constructor
  · intro f hf
    rw [himports] at hf
    rcases List.mem_append.mp hf with hf | hf
    · exact importFragments_provenance source first last f hf
    · obtain ⟨k, -, hf⟩ := List.mem_flatMap.mp hf
      exact importFragments_provenance k.file.source 0 (-1) f hf
  · intro f hf
    obtain ⟨k, -, rfl⟩ := List.mem_map.mp (hfragments.mem_iff.mp hf)
    rfl

theorem surveyProject_of_survey {s : Site} {limits : Limits} {source : SourceFile}
    {level : Level} {found : Survey} (h : survey s limits source level = .ok found) :
    surveyProject s limits source level = .ok (found.root, found.files) := by
  obtain ⟨⟨root, files⟩, hproject, h⟩ := Success.bind_eq_ok.mp h
  dsimp only at h
  split at h
  all_goals
    obtain ⟨libraries, -, h⟩ := Success.bind_eq_ok.mp h
    cases h
    exact hproject

theorem surveyProject_root_none {s : Site} {limits : Limits} {source : SourceFile}
    {level : Level} {root : Option Path} {files : List Path}
    (h : surveyProject s limits source level = .ok (root, files)) (hroot : root = none) :
    files = [] := by
  subst hroot
  unfold surveyProject at h
  split at h
  · obtain ⟨root, -, h⟩ := Success.bind_eq_ok.mp h
    cases root with
    | none =>
      cases h
      rfl
    | some root =>
      obtain ⟨files, -, h⟩ := Success.bind_eq_ok.mp h
      cases h
  · cases h
    rfl

/-- Once the searches are made the snippet of a range holds the context of the range. -/
theorem snippetWithin_holdsContext {s : Site} {limits : Limits} {source : SourceFile}
    {level : Level} {found : Survey} (first last : Int)
    (hinline : source.descriptor.projectLayout = .inline)
    (hfound : survey s limits source level = .ok found) :
    ∃ chosen hits missing,
      HoldsContext source first last (loadProject s source.descriptor found.files)
        (Uses source.descriptor (source.rangeText first last))
        (snippetWithin source first last level found.libraries
          (contextAround s source first last found.root found.files)) chosen hits missing := by
  have hroot := surveyProject_root_none (surveyProject_of_survey hfound)
  obtain ⟨hits, hexact, hfragments, himports⟩ := contextAround_exact s source first last
    found.root found.files hinline hroot
  obtain ⟨hown, hcopied⟩ := contextAround_inline s source first last found.root found.files
    hinline hroot
  set context := contextAround s source first last found.root found.files
  obtain ⟨himport, hproject, hfile, -⟩ := ofProvenance_snippetWithin source first last level
    found.libraries context hown hcopied
  refine ⟨context.gathered.fileDefinitions.mergeSort definitionLe, hits,
    sortNames context.missing, ?_, hfile, hproject ▸ hfragments, ?_,
    NameOrder.ascending_sortNames _, rfl⟩
  · exact hexact.reorder (List.mergeSort_perm ..) (NameOrder.sortNames_perm hexact.missing_once)
  · rw [himport, himports]
    exact dedupe_onceEach _

/-- The snippet of an accepted request from the level of the file on, if no search fails. -/
theorem resolve_eq_snippetWithin (s : Site) (limits : Limits) {request : RunRequest}
    {d : Descriptor} {level : Level} {source : SourceFile}
    (haccepted : Accepted s request d source)
    (hlevel : (level.lower d.level).atLeast .file = true) :
    resolve s limits request d level =
      (survey s limits source (level.lower d.level)).map fun found =>
        let last := min request.last (source.length : Int)
        let context := contextAround s source request.first last found.root found.files
        ⟨snippetWithin source request.first last (level.lower d.level) found.libraries context,
          context.passedOver⟩ := by
  have hbloc : (level.lower d.level).atLeast .bloc = true := by
    cases h : level.lower d.level <;> simp_all [Level.atLeast, Level.rank]
  exact (resolve_of_accepted s limits haccepted hbloc).trans
    (blockSnippet_eq s limits source request.first (min request.last source.length)
      (level.lower d.level) hlevel)

/-- A request that is accepted is resolved unless a search fails, and then to exactly the
context that its selection needs. -/
theorem resolve_context_exact (s : Site) (limits : Limits) (request : RunRequest)
    (d : Descriptor) (level : Level) (source : SourceFile)
    (hinline : d.projectLayout = .inline)
    (hlevel : (level.lower d.level).atLeast .file = true)
    (haccepted : Accepted s request d source) :
    (∀ failure, survey s limits source (level.lower d.level) = .error failure →
      resolve s limits request d level = .error failure) ∧
    ∀ found, survey s limits source (level.lower d.level) = .ok found →
      ∃ r chosen hits missing, resolve s limits request d level = .ok r ∧
        r.snippet.level = level.lower d.level ∧ r.snippet.projectRoot = found.root ∧
        HoldsContext source request.first (min request.last source.length)
          (loadProject s d found.files)
          (Uses d (source.rangeText request.first (min request.last source.length)))
          r.snippet chosen hits missing := by
  obtain ⟨p, -, hread⟩ := haccepted.readable
  have hd : source.descriptor = d := (readSource_ok hread).1
  have hresolve := resolve_eq_snippetWithin s limits haccepted hlevel
  constructor
  · intro failure hfailure
    rw [hresolve, hfailure]
    rfl
  · intro found hfound
    rw [hfound] at hresolve
    subst hd
    obtain ⟨chosen, hits, missing, hcontext⟩ := snippetWithin_holdsContext request.first
      (min request.last source.length) hinline hfound
    exact ⟨_, chosen, hits, missing, hresolve, rfl, contextAround_root .., hcontext⟩

section TwoFiles

/-- The first file calls a function that only the other one defines. -/
private def twoFiles : Site :=
  ⟨⟨[([".git"], .directory),
    (["a.py"], .file (Text.encodeUtf8 "def f(n):\n    return g(n)\n\nf(4)\n") false),
    (["b.py"], .file (Text.encodeUtf8 "import m\n\ndef g(n):\n    return m.h(n)\n") false)]⟩,
    [], [], {}⟩

private def pythonInGit : Descriptor :=
  { Language.python with projectMarkers := [".git"] }

private def callOfF : RunRequest where
  file := ⟨.root, ["a.py"]⟩
  first := 4
  last := 4
  scriptDir := ⟨.root, []⟩

private def fileOfF : SourceFile :=
  ⟨⟨.root, ["a.py"]⟩, pythonInGit, ["def f(n):", "    return g(n)", "", "f(4)"]⟩

theorem resolve_context_exact_twoFiles :
    survey twoFiles {} fileOfF .project =
        .ok ⟨some ⟨.root, []⟩, [⟨.root, ["b.py"]⟩], []⟩ ∧
      ∃ r chosen hits missing, resolve twoFiles {} callOfF pythonInGit .project = .ok r ∧
        HoldsContext fileOfF 4 4 (loadProject twoFiles pythonInGit [⟨.root, ["b.py"]⟩])
          (Uses pythonInGit (fileOfF.rangeText 4 4)) r.snippet chosen hits missing := by
  have haccepted : Accepted twoFiles callOfF pythonInGit fileOfF :=
    ⟨by decide, by decide, ⟨⟨.root, ["a.py"]⟩, by cbv, by cbv⟩, by decide⟩
  have hsurvey : survey twoFiles {} fileOfF .project =
      .ok ⟨some ⟨.root, []⟩, [⟨.root, ["b.py"]⟩], []⟩ := by cbv
  obtain ⟨r, chosen, hits, missing, hr, -, -, hcontext⟩ :=
    (resolve_context_exact twoFiles {} callOfF pythonInGit .project fileOfF (by decide)
      (by decide) haccepted).2 _ hsurvey
  exact ⟨hsurvey, r, chosen, hits, missing, hr, hcontext⟩

end TwoFiles

end SnippetRunner.Selection
