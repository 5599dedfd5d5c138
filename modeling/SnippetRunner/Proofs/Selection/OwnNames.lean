import SnippetRunner.Proofs.Project.Roots
import SnippetRunner.Proofs.Selection.Obstruction

/-!
Names that a selection defines itself. They are struck from the names that the selection wants,
and only from those: a definition that is taken in brings its own references along, which stand
for what they stand for outside the selection. So a name of the selection is looked for
elsewhere exactly when a definition taken in for another name refers to it.
-/
namespace SnippetRunner.Selection

open Source Surrounding

/-- A name was looked for outside the selection: it was found in the file, found in the
project, or missed. -/
def SoughtElsewhere (chosen : List Definition) (hits : List Hit) (missing : List String)
    (n : String) : Prop :=
  Provides chosen n ∨ n ∈ hits.map (·.name) ∨ n ∈ missing

/-- A definition of another name that was taken in refers to the name. -/
def ReferredTo (style : BlockStyle) (chosen : List Definition) (hits : List Hit)
    (n : String) : Prop :=
  (∃ e ∈ chosen, e.name ≠ n ∧ n ∈ identifiers style e.text) ∨
    ∃ h ∈ hits, h.name ≠ n ∧ n ∈ identifiers style h.definition.text

section Exact

variable {around : Surrounding} {files : List Loaded} {wants : String → Prop}
  {chosen : List Definition} {hits : List Hit} {missing : List String} {n : String}

/-- Only the needed names are looked for, and all of them. -/
theorem ProjectScope.Exact.soughtElsewhere_iff
    (h : ProjectScope.Exact around files wants chosen hits missing) :
    SoughtElsewhere chosen hits missing n ↔ Needed around files wants n := by
  constructor
  · rintro (⟨e, he, rfl⟩ | hhit | hmiss)
    · exact ((h.chosen_iff e).mp he).1
    · obtain ⟨k, hk, rfl⟩ := List.mem_map.mp hhit
      exact ((h.hits_iff k).mp hk).1
    · exact ((h.missing_iff n).mp hmiss).1
  · intro hneeded
    by_cases hlocal : ∃ e, around.Denotes n e
    · obtain ⟨e, he⟩ := hlocal
      obtain rfl := he.name_eq
      exact Or.inl ⟨e, (h.chosen_iff e).mpr ⟨hneeded, he⟩, rfl⟩
    · by_cases hfound : ∃ file e, FoundInProject around files n file e
      · obtain ⟨file, e, he⟩ := hfound
        have hhit := (h.hits_iff ⟨n, file, e⟩).mpr ⟨hneeded, he⟩
        exact Or.inr (Or.inl (List.mem_map_of_mem (f := Hit.name) hhit))
      · have hnowhere : Unresolved around files n :=
          ⟨fun e he => hlocal ⟨e, he⟩, fun file e he => hfound ⟨file, e, he⟩⟩
        exact Or.inr (Or.inr ((h.missing_iff n).mpr ⟨hneeded, hnowhere⟩))

/-- A name that is not wanted is needed only by what was taken in for another name. -/
theorem ProjectScope.Exact.needed_iff_referredTo
    (h : ProjectScope.Exact around files wants chosen hits missing) (hn : ¬ wants n) :
    Needed around files wants n ↔ ReferredTo around.style chosen hits n := by
  constructor
  · intro hneeded
    cases hneeded with
    | wanted hwanted => exact absurd hwanted hn
    | @inFile other _ e hother he href hne =>
      obtain rfl := he.name_eq
      exact Or.inl ⟨e, (h.chosen_iff e).mpr ⟨hother, he⟩, hne.symm, href⟩
    | @inProject other _ file e hother he href hne =>
      exact Or.inr ⟨⟨other, file, e⟩, (h.hits_iff _).mpr ⟨hother, he⟩, hne.symm, href⟩
  · rintro (⟨e, he, hne, href⟩ | ⟨k, hk, hne, href⟩)
    · obtain ⟨hneeded, hdenotes⟩ := (h.chosen_iff e).mp he
      exact hneeded.inFile hdenotes href hne.symm
    · obtain ⟨hneeded, hfound⟩ := (h.hits_iff k).mp hk
      exact hneeded.inProject hfound href hne.symm

end Exact

section Resolved

variable {s : Site} {limits : Limits} {request : RunRequest} {d : Descriptor} {level : Level}
  {r : Resolution}

/-- For a language whose definitions are copied a resolved request holds the context of its
selection. A name that the selection defines is looked for elsewhere just if a definition that
was taken in for another name refers to it, whatever the selection itself says of it. -/
theorem own_name_sought_iff_referred (hinline : d.projectLayout = .inline)
    (hlevel : (level.lower d.level).atLeast .file = true)
    (hr : resolve s limits request d level = .ok r) :
    ∃ source found chosen hits missing, Accepted s request d source ∧
      survey s limits source (level.lower d.level) = .ok found ∧
      HoldsContext source request.first (min request.last source.length)
        (loadProject s d found.files)
        (Uses d (source.rangeText request.first (min request.last source.length)))
        r.snippet chosen hits missing ∧
      ∀ n ∈ d.definedNames (source.rangeText request.first (min request.last source.length)),
        SoughtElsewhere chosen hits missing n ↔ ReferredTo d.blockStyle chosen hits n := by
  obtain ⟨source, haccepted⟩ := accepted_of_resolve hr
  obtain ⟨p, -, hread⟩ := haccepted.readable
  obtain ⟨rfl, -⟩ := readSource_ok hread
  rw [resolve_eq_snippetWithin s limits haccepted hlevel] at hr
  obtain ⟨found, hfound, rfl⟩ := Success.map_eq_ok.mp hr
  obtain ⟨chosen, hits, missing, hcontext⟩ := snippetWithin_holdsContext request.first
    (min request.last source.length) hinline hfound
  refine ⟨source, found, chosen, hits, missing, haccepted, hfound, hcontext, ?_⟩
  intro n hn
  have hunused : ¬ Uses source.descriptor
      (source.rangeText request.first (min request.last source.length)) n := fun h => h.2 hn
  rw [hcontext.exact.soughtElsewhere_iff, hcontext.exact.needed_iff_referredTo hunused]
  rfl

end Resolved

section Redefined

/-- The first function of a file calls the second one, which the selection defines; another file
defines a function of that name as well. -/
private def redefined : Site :=
  ⟨⟨[([".git"], .directory),
    (["a.py"], .file (Text.encodeUtf8
      "def g():\n    return f()\ndef f():\n    return 1\nprint(g())\n") false),
    (["b.py"], .file (Text.encodeUtf8 "def f():\n    return 2\n") false)]⟩, [], [], {}⟩

private def belowG : RunRequest where
  file := ⟨.root, ["a.py"]⟩
  first := 3
  last := 5
  scriptDir := ⟨.root, []⟩

private def fileRedefiningF : SourceFile :=
  ⟨⟨.root, ["a.py"]⟩, Language.python,
    ["def g():", "    return f()", "def f():", "    return 1", "print(g())"]⟩

private def otherFile : SourceFile :=
  ⟨⟨.root, ["b.py"]⟩, Language.python, ["def f():", "    return 2"]⟩

private def definitionOfG : Definition := ⟨"g", 1, 2, "def g():\n    return f()"⟩

private def otherF : Definition := ⟨"f", 1, 2, "def f():\n    return 2"⟩

private theorem findRoot_redefined :
    Project.findRoot redefined ⟨.root, []⟩ Language.python.projectMarkers 10 =
      .ok (some ⟨.root, []⟩) := by
  have hfree : Project.Unmarked redefined ["pyproject.toml", "setup.py", "setup.cfg"]
      ⟨.root, []⟩ := by
    intro name hname
    have hchild : Path.child ⟨.root, []⟩ name = ⟨.root, [name]⟩ := by
      revert name
      decide
    rw [hchild]
    apply Site.pathExists_of_free rfl
    all_goals
      revert name
      decide
  have hgit : redefined.pathExists (Path.child ⟨.root, []⟩ ".git") = .ok true := by cbv
  exact Project.findRoot_here (by cbv) (Project.holdsMarker_of_free hfree hgit) (by decide)

private theorem survey_redefined : survey redefined {} fileRedefiningF .project =
    .ok ⟨some ⟨.root, []⟩, [⟨.root, ["b.py"]⟩], []⟩ := by
  have hfiles : Project.sourceFiles redefined ⟨.root, []⟩ ".py" 6 200 (some ⟨.root, ["a.py"]⟩) =
      .ok [⟨.root, ["b.py"]⟩] := by cbv
  have hproject : surveyProject redefined {} fileRedefiningF .project =
      .ok (some ⟨.root, []⟩, [⟨.root, ["b.py"]⟩]) := by
    unfold surveyProject
    exact Success.bind_eq_ok.mpr ⟨_, findRoot_redefined, Success.bind_eq_ok.mpr ⟨_, hfiles, rfl⟩⟩
  exact Success.bind_eq_ok.mpr ⟨_, hproject, rfl⟩

private theorem accepted_redefined : Accepted redefined belowG Language.python fileRedefiningF := by
  have hpath : belowG.sourcePath redefined.env = .ok ⟨.root, ["a.py"]⟩ := by cbv
  have htext : redefined.readText ⟨.root, ["a.py"]⟩ =
      .ok "def g():\n    return f()\ndef f():\n    return 1\nprint(g())\n" := by cbv
  have hlines : Text.splitLines
      "def g():\n    return f()\ndef f():\n    return 1\nprint(g())\n" = fileRedefiningF.lines := by
    decide
  refine ⟨by decide, by decide, ⟨_, hpath, ?_⟩, by decide⟩
  simp [readSource, htext, SourceFile.ofText, hlines, fileRedefiningF]

private theorem readSource_otherFile :
    readSource redefined ⟨.root, ["b.py"]⟩ Language.python = .ok otherFile := by
  have htext : redefined.readText ⟨.root, ["b.py"]⟩ = .ok "def f():\n    return 2\n" := by cbv
  have hlines : Text.splitLines "def f():\n    return 2\n" = otherFile.lines := by
    decide
  simp [readSource, htext, SourceFile.ofText, hlines, otherFile]

private theorem definitions_redefined :
    fileRedefiningF.definitions = [definitionOfG, ⟨"f", 3, 4, "def f():\n    return 1"⟩] ∧
      otherFile.definitions = [otherF] := by
  have hheads : ∀ line ∈ ["def g():", "def f():"], Language.python.isImport line = false := by
    decide
  have hnames : Language.python.definedName? "def g():" = some "g" ∧
      Language.python.definedName? "def f():" = some "f" ∧
      Language.python.definedName? "print(g())" = none := by decide
  have hg : blockLength Language.python fileRedefiningF.lines = 2 := by decide +kernel
  have hf : blockLength Language.python ["def f():", "    return 1", "print(g())"] = 2 := by
    decide +kernel
  have hother : blockLength Language.python otherFile.lines = 2 := by decide +kernel
  simp only [fileRedefiningF, otherFile] at hg hother
  simp [SourceFile.definitions, fileRedefiningF, otherFile, definitionsFrom, hheads, hnames, hg,
    hf, hother, decorators, definitionOfG, otherF]
  decide

/-- The selection defines the second function, and yet that of the other file is copied for it: the
first function is taken in and refers to it. -/
theorem own_name_sought_iff_referred_redefined :
    ∃ r found chosen hits missing,
      resolve redefined {} belowG Language.python .project = .ok r ∧
      "f" ∈ Language.python.definedNames (fileRedefiningF.rangeText 3 5) ∧
      Hit.fragment ⟨"f", ⟨otherFile, otherFile.definitions⟩, otherF⟩ ∈ r.snippet.fragments ∧
      HoldsContext fileRedefiningF 3 5 (loadProject redefined Language.python found)
        (Uses Language.python (fileRedefiningF.rangeText 3 5)) r.snippet chosen hits missing ∧
      SoughtElsewhere chosen hits missing "f" ∧ ReferredTo .indent chosen hits "f" := by
  obtain ⟨r, hr⟩ : ∃ r, resolve redefined {} belowG Language.python .project = .ok r := by
    rw [resolve_eq_snippetWithin redefined {} accepted_redefined (by decide)]
    exact ⟨_, Success.map_eq_ok.mpr ⟨_, survey_redefined, rfl⟩⟩
  obtain ⟨source, found, chosen, hits, missing, haccepted, hfound, hcontext, hiff⟩ :=
    own_name_sought_iff_referred (by decide) (by decide) hr
  have hsource : source = fileRedefiningF := by
    obtain ⟨p, hp, hread⟩ := haccepted.readable
    obtain ⟨q, hq, hread'⟩ := accepted_redefined.readable
    cases hp.symm.trans hq
    cases hread.symm.trans hread'
    rfl
  subst hsource
  cases survey_redefined.symm.trans hfound
  have hdefined : "f" ∈ Language.python.definedNames (fileRedefiningF.rangeText 3 5) := by
    have hnames : Language.python.definedNames (fileRedefiningF.rangeText 3 5) = ["f"] := by cbv
    simp [hnames]
  have hcall : (surroundingOf fileRedefiningF 3 5).Denotes "g" definitionOfG := by
    simp only [Denotes, surroundingOf, definitions_redefined]
    decide
  have hneeded : Needed (surroundingOf fileRedefiningF 3 5)
      (loadProject redefined Language.python [⟨.root, ["b.py"]⟩])
      (Uses Language.python (fileRedefiningF.rangeText 3 5)) "g" := by
    refine .wanted ((mem_wantedNames ..).mpr ?_)
    decide +kernel
  have hloaded : loadProject redefined Language.python [⟨.root, ["b.py"]⟩] =
      [(⟨.root, ["b.py"]⟩, .ok ⟨otherFile, otherFile.definitions⟩)] := by
    simp [loadProject, readSource_otherFile, Except.map]
  have hother : FoundInProject (surroundingOf fileRedefiningF 3 5)
      (loadProject redefined Language.python [⟨.root, ["b.py"]⟩]) "f"
      ⟨otherFile, otherFile.definitions⟩ otherF := by
    refine ⟨?_, [], _, [], hloaded, by simp, by simp [definitions_redefined]; decide⟩
    rintro ⟨e, he, hname, houtside⟩
    rw [surroundingOf, definitions_redefined.1] at he
    rcases List.mem_pair.mp he with rfl | rfl
    · exact absurd hname (by decide)
    · exact absurd houtside (by decide)
  have hsought : Needed (surroundingOf fileRedefiningF 3 5)
      (loadProject redefined Language.python [⟨.root, ["b.py"]⟩])
      (Uses Language.python (fileRedefiningF.rangeText 3 5)) "f" :=
    hneeded.inFile hcall (by decide +kernel) (by decide)
  have hhit : ⟨"f", ⟨otherFile, otherFile.definitions⟩, otherF⟩ ∈ hits :=
    (hcontext.exact.hits_iff _).mpr ⟨hsought, hother⟩
  have helsewhere := hcontext.exact.soughtElsewhere_iff.mpr hsought
  refine ⟨r, _, chosen, hits, missing, hr, hdefined, ?_, hcontext, helsewhere,
    (hiff "f" hdefined).mp helsewhere⟩
  have hfragment := hcontext.projectScope.mem_iff.mpr (List.mem_map_of_mem (f := Hit.fragment) hhit)
  exact (List.mem_filter.mp hfragment).1

end Redefined

end SnippetRunner.Selection
