import SnippetRunner.Proofs.FileTree.Trails
import SnippetRunner.Proofs.Project.Roots
import SnippetRunner.Proofs.Selection.Context
import SnippetRunner.Proofs.Source.Heads
import SnippetRunner.Workspace.Render

/-!
Names that the current file imports. The search of the project asks only what the current
file defines, so a name that is imported there is looked for in the project like any other
one, and the main file rebinds it to the first definition of it that is found.
-/
namespace SnippetRunner.Selection

open Source

/-- A one-line statement that binds a name by importing it. -/
inductive BindsByImport (name : String) : String → Prop
  | module : BindsByImport name ("import " ++ name)
  | member (module_ : String) :
      BindsByImport name ("from " ++ module_ ++ " import " ++ name)

/-- Among the definitions of the main file there is a copied one, of another file of the
project, that binds the name. -/
def Rebinds (snippet : Snippet) (name : String) : Prop :=
  ∃ f ∈ snippet.ofProvenance .projectScope, f.relativePath = none ∧
    f.text ∈ snippet.definitionBlock ∧ headName? snippet.descriptor f.text = some name

/-- The lines `first..last` need a name that their file does not define outside of them but
another file of the project does. -/
def NeededElsewhere (s : Site) (source : SourceFile) (first last : Int) (files : List Path)
    (name : String) : Prop :=
  Needed (surroundingOf source first last) (loadProject s source.descriptor files)
      (Uses source.descriptor (source.rangeText first last)) name ∧
    ∃ file e, FoundInProject (surroundingOf source first last)
      (loadProject s source.descriptor files) name file e

theorem readSource_unbroken {s : Site} {p : Path} {d : Descriptor} {source : SourceFile}
    (h : readSource s p d = .ok source) : ∀ line ∈ source.lines, Text.Unbroken line.toList := by
  unfold readSource at h
  split at h
  · cases h
    exact Text.splitLines_unbroken _
  all_goals cases h

/-- The head of what a name stands for in the project defines that name. -/
theorem headName?_of_foundInProject {s : Site} {d : Descriptor} {files : List Path}
    {around : Surrounding} {name : String} {file : ProjectFile} {e : Definition}
    (hd : ProperHeads d) (h : FoundInProject around (loadProject s d files) name file e) :
    headName? d e.text = some name := by
  obtain ⟨before, path, after, hfiles, -, hfind⟩ := h.2
  have hloaded : (path, Except.ok file) ∈ loadProject s d files := by
    rw [hfiles]
    simp
  obtain ⟨p, -, heq⟩ := List.mem_map.mp hloaded
  obtain ⟨source, hread, rfl⟩ := Success.map_eq_ok.mp (Prod.mk.inj heq).2
  have hname : e.name = name := by simpa using List.find?_some hfind
  obtain ⟨rfl, -⟩ := readSource_ok hread
  rw [← hname]
  exact headName?_of_mem_definitions hd (readSource_unbroken hread) e
    (List.mem_of_find?_eq_some hfind)

theorem rebinds_snippetWithin_iff {s : Site} {limits : Limits} {source : SourceFile}
    {level : Level} {found : Survey} (first last : Int)
    (hinline : source.descriptor.projectLayout = .inline) (hd : ProperHeads source.descriptor)
    (hfound : survey s limits source level = .ok found) (name : String) :
    Rebinds (snippetWithin source first last level found.libraries
        (contextAround s source first last found.root found.files)) name ↔
      NeededElsewhere s source first last found.files name := by
  obtain ⟨chosen, hits, missing, h⟩ := snippetWithin_holdsContext first last hinline hfound
  constructor
  · rintro ⟨f, hf, -, -, hname⟩
    obtain ⟨hit, hhit, rfl⟩ := List.mem_map.mp (h.projectScope.mem_iff.mp hf)
    obtain ⟨hneeded, hhere⟩ := (h.exact.hits_iff hit).mp hhit
    obtain rfl := Option.some.inj ((headName?_of_foundInProject hd hhere).symm.trans hname)
    exact ⟨hneeded, hit.file, hit.definition, hhere⟩
  · rintro ⟨hneeded, file, e, hhere⟩
    have hhit := (h.exact.hits_iff ⟨name, file, e⟩).mpr ⟨hneeded, hhere⟩
    have hf := h.projectScope.mem_iff.mpr (List.mem_map_of_mem (f := Hit.fragment) hhit)
    refine ⟨_, hf, rfl, ?_, headName?_of_foundInProject hd hhere⟩
    have hmem := (List.mem_filter.mp hf).1
    exact List.mem_map.mpr ⟨_, List.mem_filter.mpr ⟨hmem, rfl⟩, rfl⟩

/-- Whether a name is rebound does not depend on what the current file imports: it is just
if the selection needs it, the current file does not define it and another file does. So
the imported names keep their meaning just if none of them is needed and found elsewhere. -/
theorem imported_rebound_iff {s : Site} {limits : Limits} {request : RunRequest}
    {source : SourceFile} {found : Survey}
    (haccepted : Accepted s request Language.python source)
    (hfound : survey s limits source .project = .ok found) :
    ∃ r, resolve s limits request Language.python .project = .ok r ∧
      (∀ name, Rebinds r.snippet name ↔ NeededElsewhere s source request.first
        (min request.last source.length) found.files name) ∧
      ((∀ f ∈ ProjectScope.importFragments source request.first
            (min request.last source.length), ∀ name,
          BindsByImport name f.text → ¬ Rebinds r.snippet name) ↔
        ∀ f ∈ ProjectScope.importFragments source request.first
            (min request.last source.length), ∀ name,
          BindsByImport name f.text → ¬ NeededElsewhere s source request.first
            (min request.last source.length) found.files name) := by
  obtain ⟨p, -, hread⟩ := haccepted.readable
  have hd : source.descriptor = Language.python := (readSource_ok hread).1
  have hresolve : resolve s limits request Language.python .project = _ :=
    resolve_eq_snippetWithin s limits haccepted (by decide)
  have hlevel : Level.project.lower Language.python.level = .project := by decide
  rw [hlevel, hfound] at hresolve
  have hiff := rebinds_snippetWithin_iff request.first (min request.last source.length)
    (hd ▸ rfl) (hd ▸ properHeads_python) hfound
  refine ⟨_, hresolve, hiff, ?_⟩
  simp only [hiff]

section TwoModules

/-- The first file imports a function of the third one, and the second one has a namesake. -/
private def twoModules : Site :=
  ⟨⟨[([".git"], .directory),
    (["c.py"], .file (Text.encodeUtf8 "from b import f\n\nf(4)\n") false),
    (["a.py"], .file (Text.encodeUtf8 "def f(n):\n    return 1\n") false),
    (["b.py"], .file (Text.encodeUtf8 "def f(n):\n    return 2\n") false)]⟩, [], [], {}⟩

private def callOfImported : RunRequest where
  file := ⟨.root, ["c.py"]⟩
  first := 3
  last := 3
  scriptDir := ⟨.root, []⟩

private def importingFile : SourceFile :=
  ⟨⟨.root, ["c.py"]⟩, Language.python, ["from b import f", "", "f(4)"]⟩

private theorem findRoot_twoModules :
    Project.findRoot twoModules ⟨.root, []⟩ Language.python.projectMarkers 10 =
      .ok (some ⟨.root, []⟩) := by
  have hfree : Project.Unmarked twoModules ["pyproject.toml", "setup.py", "setup.cfg"]
      ⟨.root, []⟩ := by
    intro name hname
    have hchild : Path.child ⟨.root, []⟩ name = ⟨.root, [name]⟩ := by
      revert name
      decide
    rw [hchild]
    apply Site.pathExists_of_free rfl
    all_goals
      revert name
      decide
  have hgit : twoModules.pathExists (Path.child ⟨.root, []⟩ ".git") = .ok true := by cbv
  exact Project.findRoot_here (by cbv) (Project.holdsMarker_of_free hfree hgit) (by decide)

private theorem survey_twoModules : survey twoModules {} importingFile .project =
    .ok ⟨some ⟨.root, []⟩, [⟨.root, ["a.py"]⟩, ⟨.root, ["b.py"]⟩], []⟩ := by
  have hfiles : Project.sourceFiles twoModules ⟨.root, []⟩ ".py" 6 200 (some ⟨.root, ["c.py"]⟩) =
      .ok [⟨.root, ["a.py"]⟩, ⟨.root, ["b.py"]⟩] := by cbv
  have hproject : surveyProject twoModules {} importingFile .project =
      .ok (some ⟨.root, []⟩, [⟨.root, ["a.py"]⟩, ⟨.root, ["b.py"]⟩]) := by
    unfold surveyProject
    exact Success.bind_eq_ok.mpr ⟨_, findRoot_twoModules, Success.bind_eq_ok.mpr ⟨_, hfiles, rfl⟩⟩
  exact Success.bind_eq_ok.mpr ⟨_, hproject, rfl⟩

private theorem accepted_twoModules :
    Accepted twoModules callOfImported Language.python importingFile := by
  have hpath : callOfImported.sourcePath twoModules.env = .ok ⟨.root, ["c.py"]⟩ := by cbv
  have htext : twoModules.readText ⟨.root, ["c.py"]⟩ = .ok "from b import f\n\nf(4)\n" := by cbv
  have hlines : Text.splitLines "from b import f\n\nf(4)\n" = ["from b import f", "", "f(4)"] := by
    decide
  refine ⟨by decide, by decide, ⟨_, hpath, ?_⟩, by decide⟩
  simp [readSource, htext, SourceFile.ofText, hlines, importingFile]

private theorem imports_importingFile :
    importingFile.imports 3 3 = [⟨1, ["from b import f"]⟩] := by
  have himport : Language.python.isImport "from b import f" = true := by decide
  have hothers : ∀ line ∈ ["", "f(4)"], Language.python.isImport line = false ∧
      Language.python.definedName? line = none := by decide
  have hlength : statementLength Language.python.blockStyle 0 importingFile.lines = 1 := by
    decide +kernel
  have hpatterns : Language.python.importPatterns.isEmpty = false ∧
      Language.python.definitionPatterns.isEmpty = false := by decide
  simp only [importingFile] at hlength
  simp [SourceFile.imports, importingFile, statementsFrom, endsRegion, himport, hothers, hlength,
    hpatterns]

private def namesakeFile : SourceFile :=
  ⟨⟨.root, ["a.py"]⟩, Language.python, ["def f(n):", "    return 1"]⟩

private theorem readSource_namesake :
    readSource twoModules ⟨.root, ["a.py"]⟩ Language.python = .ok namesakeFile := by
  have htext : twoModules.readText ⟨.root, ["a.py"]⟩ = .ok "def f(n):\n    return 1\n" := by cbv
  have hlines : Text.splitLines "def f(n):\n    return 1\n" = namesakeFile.lines := by
    decide
  simp [readSource, htext, SourceFile.ofText, hlines, namesakeFile]

private theorem definitions_namesake :
    namesakeFile.definitions = [⟨"f", 1, 2, "def f(n):\n    return 1"⟩] := by
  have hhead : Language.python.isImport "def f(n):" = false ∧
      Language.python.definedName? "def f(n):" = some "f" := by decide
  have hlength : blockLength Language.python namesakeFile.lines = 2 := by decide +kernel
  simp only [namesakeFile] at hlength
  simp [SourceFile.definitions, namesakeFile, definitionsFrom, hhead, hlength, decorators]
  decide

private theorem definitions_importingFile : importingFile.definitions = [] := by
  have hlines : ∀ line ∈ ["from b import f", "", "f(4)"],
      Language.python.definedName? line = none := by decide
  simp [SourceFile.definitions, importingFile, definitionsFrom, hlines]

/-- The function is imported from one module and rebound to that of another one. -/
theorem imported_rebound_twoModules :
    ∃ r, resolve twoModules {} callOfImported Language.python .project = .ok r ∧
      (∃ f ∈ ProjectScope.importFragments importingFile 3 3, BindsByImport "f" f.text) ∧
      Rebinds r.snippet "f" := by
  obtain ⟨r, hr, hiff, -⟩ := imported_rebound_iff accepted_twoModules survey_twoModules
  have hloaded : loadProject twoModules Language.python [⟨.root, ["a.py"]⟩, ⟨.root, ["b.py"]⟩] =
      (⟨.root, ["a.py"]⟩, .ok ⟨namesakeFile, namesakeFile.definitions⟩) ::
        loadProject twoModules Language.python [⟨.root, ["b.py"]⟩] := by
    simp [loadProject, readSource_namesake, Except.map]
  refine ⟨r, hr, ⟨⟨"from b import f", .import_, ⟨.root, ["c.py"]⟩, 1, none⟩, ?_, ?_⟩, ?_⟩
  · rw [ProjectScope.importFragments, imports_importingFile]
    exact List.mem_cons_self ..
  · exact BindsByImport.member "b"
  · refine (hiff "f").mpr ⟨.wanted ?_, ⟨namesakeFile, namesakeFile.definitions⟩,
      ⟨"f", 1, 2, "def f(n):\n    return 1"⟩, ?_, [], _, _, hloaded, by simp, ?_⟩
    · rw [mem_wantedNames]
      decide +kernel
    · rintro ⟨e, he, -⟩
      simp [surroundingOf, definitions_importingFile] at he
    · simp [definitions_namesake]

end TwoModules

end SnippetRunner.Selection
