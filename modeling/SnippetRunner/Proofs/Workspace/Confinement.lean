import SnippetRunner.Language.BuiltIn
import SnippetRunner.Proofs.Selection.Places
import SnippetRunner.Proofs.Text.PathNames
import SnippetRunner.Proofs.Workspace.Additions
import SnippetRunner.Proofs.Workspace.Materials

/-!
Where a run writes. Whether or not writing the files of a snippet succeeds, whatever is different
in the file tree afterwards is where one of its paths leads, or a directory made on the way to one.
The paths go down from the directory of the language.
-/
namespace SnippetRunner.Workspace

open FileTree Success

def Above (q p : Path) : Prop :=
  q.anchor = p.anchor ∧ q.parts <+: p.parts.dropLast

/-- What may be different at a location once a path was written to. -/
inductive Touched (cwd : Location) (p : Path) (t t' : FileTree) (loc : Location) : Prop
  /-- The path leads there. -/
  | written {e : Entry} : t'.stat cwd p = .ok (loc, e) → Touched cwd p t t' loc
  /-- A directory above it was made there. -/
  | made {q : Path} : Above q p → t.find? loc = none → t'.stat cwd q = .ok (loc, .directory) →
      Touched cwd p t t' loc

/-- From one tree to another one by writing to some paths only. -/
structure Confined (cwd : Location) (paths : List Path) (t t' : FileTree) : Prop where
  grown : Grown t t'
  touched : ∀ loc, t'.find? loc ≠ t.find? loc → ∃ p ∈ paths, Touched cwd p t t' loc

/-- Whatever comes of an action on files, it writes to some paths only. -/
structure Confines {α : Type} (cwd : Location) (paths : List Path) (f : Files α) : Prop where
  confined : ∀ t, Confined cwd paths t (outcome f t).2

section Confined

variable {cwd : Location} {paths paths' : List Path} {p q : Path} {t t' t'' : FileTree}

theorem Confined.refl (cwd : Location) (paths : List Path) (t : FileTree) :
    Confined cwd paths t t :=
  ⟨.refl t, fun _ h => absurd rfl h⟩

theorem Confined.mono (hsub : paths ⊆ paths') (h : Confined cwd paths t t') :
    Confined cwd paths' t t' := by
  refine ⟨h.grown, fun loc hloc => ?_⟩
  obtain ⟨p, hp, htouched⟩ := h.touched loc hloc
  exact ⟨p, hsub hp, htouched⟩

/-- What was touched is touched still when the tree grows on. -/
theorem Touched.grown {loc : Location} (h : Touched cwd p t t' loc) (hgrown : Grown t' t'') :
    Touched cwd p t t'' loc := by
  cases h with
  | written hstat =>
    obtain ⟨e, he, -⟩ := hgrown.kept loc _ (find?_of_stat hstat)
    exact .written (stat_grown hgrown hstat he)
  | made habove hnew hstat =>
    exact .made habove hnew (stat_grown hgrown hstat (hgrown.directory (find?_of_stat hstat)))

theorem Touched.earlier {loc : Location} (h : Touched cwd p t' t'' loc)
    (hsame : t'.find? loc = t.find? loc) : Touched cwd p t t'' loc := by
  cases h with
  | written hstat => exact .written hstat
  | made habove hnew hstat => exact .made habove (hsame ▸ hnew) hstat

theorem Confined.trans (h : Confined cwd paths t t') (h' : Confined cwd paths t' t'') :
    Confined cwd paths t t'' := by
  refine ⟨h.grown.trans h'.grown, fun loc hloc => ?_⟩
  by_cases hsame : t'.find? loc = t.find? loc
  · obtain ⟨p, hp, htouched⟩ := h'.touched loc (hsame ▸ hloc)
    exact ⟨p, hp, htouched.earlier hsame⟩
  · obtain ⟨p, hp, htouched⟩ := h.touched loc hsame
    exact ⟨p, hp, htouched.grown h'.grown⟩

theorem makeDirectory_confined (habove : Above q p) (h : t.makeDirectory cwd q = .ok t') :
    Confined cwd [p] t t' := by
  refine ⟨(added_of_makeDirectory h).grown, ?_⟩
  have hadded := added_of_makeDirectory h
  unfold FileTree.makeDirectory at h
  split at h
  · rename_i parent name hwalk
    cases h
    have hfree : t.find? (parent ++ [name]) = none := walkFrom_ok (walk_ok hwalk)
    have hfollowed : t.walk cwd true q = .ok (.vacant parent name) := by
      rw [walk_eq hwalk]
      exact walkFrom_followed nofun (walk_ok hwalk)
    have hthere : ∀ other, (t.insert (parent ++ [name]) .directory).find? other =
        if other = parent ++ [name] then some .directory else t.find? other :=
      find?_insert t (by simp) .directory
    intro loc hloc
    rw [hthere] at hloc
    by_cases hplace : loc = parent ++ [name]
    · subst hplace
      refine ⟨p, List.mem_singleton_self p, .made habove hfree ?_⟩
      exact stat_filled hadded.grown hfollowed (by rw [hthere, if_pos rfl]) trivial
    · exact absurd (if_neg hplace) hloc
  all_goals cases h

theorem Above.parent (h : Above q p) : Above q.parent p :=
  ⟨h.1, (List.dropLast_prefix _).trans h.2⟩

/-- Making directories on the way to a path touches nothing else, also if it stops half way. -/
theorem makeDirectories_confined (habove : Above q p) :
    Confined cwd [p] t (t.makeDirectories cwd q).1 := by
  fun_induction makeDirectories t cwd q with
  | case1 q t₁ hmade => exact makeDirectory_confined habove hmade
  | case2 => exact .refl ..
  | case3 q hmade hparts t₁ fault hfault ih =>
    have hconfined := ih habove.parent
    rwa [hfault] at hconfined
  | case4 q hmade hparts t₁ hnone t₂ hmade' ih =>
    have hconfined := ih habove.parent
    rw [hnone] at hconfined
    exact hconfined.trans (makeDirectory_confined habove hmade')
  | case5 q hmade hparts t₁ hnone e hmade' ih =>
    have hconfined := ih habove.parent
    rw [hnone] at hconfined
    rwa [settleMake_tree]
  | case6 q e =>
    rw [settleMake_tree]
    exact .refl ..

theorem writeOctets_confined {octets : List UInt8} (h : t.writeOctets cwd p octets = .ok t') :
    Confined cwd [p] t t' := by
  obtain ⟨hgrown, loc, e, hstat, -, helsewhere⟩ := writeOctets_place h
  refine ⟨hgrown, fun other hother => ⟨p, List.mem_singleton_self p, ?_⟩⟩
  by_cases hplace : other = loc
  · exact .written (hplace ▸ hstat)
  · exact absurd (helsewhere other hplace) hother

end Confined

section Composed

variable {α β : Type} {cwd : Location} {paths paths' : List Path}

theorem Confines.mono {f : Files α} (hsub : paths ⊆ paths') (h : Confines cwd paths f) :
    Confines cwd paths' f :=
  ⟨fun t => (h.confined t).mono hsub⟩

theorem Confines.bind {x : Files α} {f : α → Files β} (hx : Confines cwd paths x)
    (hf : ∀ a, Confines cwd paths (f a)) : Confines cwd paths (x >>= f) := by
  refine ⟨fun t => ?_⟩
  have hconfined := hx.confined t
  rw [outcome_bind]
  split
  · next a mid hmid =>
    rw [hmid] at hconfined
    exact hconfined.trans ((hf a).confined mid)
  · next hmid =>
    rw [hmid] at hconfined
    exact hconfined

theorem confines_pure (a : α) : Confines cwd paths (pure a : Files α) := ⟨fun _ => .refl ..⟩

theorem confines_get : Confines cwd paths (get : Files FileTree) := ⟨fun _ => .refl ..⟩

theorem confines_lift (r : Except Failure α) : Confines cwd paths (liftM r : Files α) := by
  refine ⟨fun t => ?_⟩
  rw [outcome_lift]
  exact .refl ..

end Composed

section Writing

variable {w : Workspace} {p q tail : Path} {language content : String}

theorem makeDirectory_confines {kind : FileFault → WorkspaceFault} (habove : Above q p) :
    Confines w.cwd [p] (w.makeDirectory q kind) := by
  refine ⟨fun t => ?_⟩
  rw [makeDirectory_tree]
  exact makeDirectories_confined habove

theorem writeFile_confines : Confines w.cwd [p] (w.writeFile p content) := by
  have habove : Above p.parent p := ⟨rfl, List.prefix_rfl⟩
  refine (makeDirectory_confines habove).bind fun _ => ⟨fun t => ?_⟩
  rw [outcome_bind, outcome_get]
  dsimp only
  split
  · next t' hwritten =>
    rw [outcome_set]
    exact writeOctets_confined hwritten
  · exact .refl ..

theorem languageDir_isName (h : Path.IsName language) :
    w.languageDir language = w.base.entry language :=
  Path.child_isName h

/-- Saving to a path below the directory of a language writes there. -/
theorem save_confines (hlanguage : Path.IsName language) (htail : Descends tail) :
    Confines w.cwd [(w.languageDir language).join tail] (w.save language tail content) := by
  have hbase : Above w.base ((w.languageDir language).join tail) := by
    have hrelative : tail.isAbsolute = false := by simp [Path.isAbsolute, htail.here]
    rw [languageDir_isName hlanguage, Path.join, hrelative]
    refine ⟨rfl, ?_⟩
    simp only [Path.entry, Bool.false_eq_true, if_false, List.append_assoc]
    rw [List.dropLast_append_of_ne_nil (by simp)]
    exact List.prefix_append _ _
  have hensure : Confines w.cwd [(w.languageDir language).join tail] w.ensure :=
    (makeDirectory_confines hbase).bind fun _ => confines_pure _
  exact hensure.bind fun _ => writeFile_confines.bind fun _ => confines_pure _

theorem saveMirrored_confines (hlanguage : Path.IsName language) {fragments : List Fragment}
    (hplaces : ∀ tail ∈ fragments.filterMap (·.relativePath), Descends tail) :
    Confines w.cwd ((fragments.filterMap (·.relativePath)).map (w.languageDir language).join)
      (w.saveMirrored language fragments) := by
  induction fragments with
  | nil => exact confines_pure _
  | cons f rest ih =>
    unfold saveMirrored
    split
    · next hplace =>
      rw [List.filterMap_cons_none hplace] at hplaces ⊢
      exact ih hplaces
    · next tail hplace =>
      rw [List.filterMap_cons_some hplace] at hplaces ⊢
      rw [List.map_cons]
      obtain ⟨htail, hrest⟩ := List.forall_mem_cons.mp hplaces
      refine ((save_confines hlanguage htail).mono (by simp)).bind fun _ => ?_
      exact ((ih hrest).mono (List.subset_cons_self ..)).bind fun _ => confines_pure _

/-- Writing the files of a snippet writes to the places of its files and nowhere else. -/
theorem materialize_confines {s : Snippet} (hlanguage : Path.IsName s.descriptor.name)
    (htails : ∀ tail ∈ tails s, Descends tail) :
    Confines w.cwd ((tails s).map (w.languageDir s.descriptor.name).join) (w.materialize s) := by
  rw [tails, List.map_cons]
  obtain ⟨hmain, hmirrored⟩ := List.forall_mem_cons.mp htails
  refine (confines_lift _).bind fun text => ?_
  refine ((save_confines hlanguage hmain).mono (by simp)).bind fun main => ?_
  refine ((saveMirrored_confines hlanguage hmirrored).mono (List.subset_cons_self ..)).bind
    fun mirrored => ?_
  exact confines_get.bind fun _ => (confines_lift _).bind fun _ => confines_pure _

end Writing

section Snippets

open Selection

variable {site : Site} {limits : Limits} {request : RunRequest} {d : Descriptor} {level : Level}
  {r : Resolution}

theorem isName_of_builtIn (hd : d ∈ Language.builtIn) :
    Path.IsName d.name ∧ Path.IsName d.mainFile := by
  have hall : ∀ d ∈ Language.builtIn, Path.IsName d.name ∧ Path.IsName d.mainFile := by
    decide
  exact hall d hd

theorem descends_ofString {name : String} (h : Path.IsName name) : Descends (.ofString name) := by
  rw [Path.ofString_isName h]
  exact ⟨rfl, List.cons_ne_nil _ _, by simpa using h.not_above.symm⟩

/-- The places of the files of a snippet go down from the directory of its language. -/
theorem tails_descend (hd : d ∈ Language.builtIn)
    (h : resolve site limits request d level = .ok r) :
    ∀ tail ∈ tails r.snippet, Descends tail := by
  obtain ⟨-, -, -, -, -, -, -, -, -, hdescriptor, -, -⟩ := resolve_project h
  intro tail htail
  rcases List.mem_cons.mp htail with rfl | htail
  · rw [hdescriptor]
    exact descends_ofString (isName_of_builtIn hd).2
  · obtain ⟨f, hf, hplace⟩ := List.mem_filterMap.mp htail
    cases hlayout : d.projectLayout with
    | mirrored =>
      obtain ⟨root, names, -, hne, hdots, hplace', -⟩ := resolve_mirrored_places hlayout h f hf
      cases hplace.symm.trans hplace'
      exact ⟨rfl, hne, hdots⟩
    | inline => cases hplace.symm.trans (resolve_inline_places hlayout h f hf)

/-- A run writes only inside the directory of its language. Whatever comes of writing the files of
a snippet of a built-in language, it writes to paths that go down from that directory, by names
other than the double dots. A file that is kept whole has the place that leads from the root of
the project to where it was taken from, and always has one; and the root is the nearest directory
with a marker, from the real directory of the file that is asked for upward. -/
theorem materialize_confined (w : Workspace) (hd : d ∈ Language.builtIn)
    (h : resolve site limits request d level = .ok r) :
    w.languageDir d.name = w.base.entry d.name ∧
      (∀ tail ∈ tails r.snippet, Descends tail) ∧
      (∀ t, Confined w.cwd ((tails r.snippet).map (w.languageDir d.name).join) t
          (outcome (w.materialize r.snippet) t).2 ∧
        ∀ m, (outcome (w.materialize r.snippet) t).1 = .ok m →
          m.sources = (tails r.snippet).map (w.languageDir d.name).join) ∧
      (∀ f ∈ r.snippet.ofProvenance .projectScope,
        (d.projectLayout = .mirrored → f.relativePath.isSome) ∧
        ∀ tail, f.relativePath = some tail →
          ∃ root, r.snippet.projectRoot = some root ∧ root.join tail = f.origin) ∧
      ∃ p, request.sourcePath site.env = .ok p ∧
        match r.snippet.projectRoot with
        | some root => ∃ directory, site.resolve p.parent = .ok directory ∧
            Project.NearestMarked site d.projectMarkers limits.rootSearchDepth directory root
        | none => (level.lower d.level).atLeast .project = false ∨
            ∃ directory, site.resolve p.parent = .ok directory ∧
              ∀ steps : Nat, (steps : Int) ≤ limits.rootSearchDepth →
                Project.Unmarked site d.projectMarkers (Project.above directory steps) := by
  obtain ⟨-, -, -, -, -, -, -, -, -, hdescriptor, -, -⟩ := resolve_project h
  have hlanguage := (isName_of_builtIn hd).1
  have htails := tails_descend hd h
  refine ⟨languageDir_isName hlanguage, htails, ?_, ?_, resolve_root h⟩
  · intro t
    rw [← hdescriptor] at hlanguage ⊢
    refine ⟨(materialize_confines hlanguage htails).confined t, fun m hm => ?_⟩
    have houtcome : outcome (w.materialize r.snippet) t =
        (.ok m, (outcome (w.materialize r.snippet) t).2) := Prod.ext hm rfl
    exact sources_eq_tails houtcome
  · intro f hf
    cases hlayout : d.projectLayout with
    | mirrored =>
      obtain ⟨root, names, hroot, -, -, hplace, horigin⟩ := resolve_mirrored_places hlayout h f hf
      refine ⟨fun _ => by rw [hplace]; rfl, fun tail htail => ?_⟩
      cases hplace.symm.trans htail
      exact ⟨root, hroot, horigin⟩
    | inline =>
      have hnone := resolve_inline_places hlayout h f hf
      refine ⟨nofun, fun tail htail => ?_⟩
      cases hnone.symm.trans htail

/-- A file in a directory of a project, whose marker is one step above. Beside the marker there
is the class that the file uses. -/
private def belowPom : Site :=
  ⟨⟨[([".q"], .directory), ([".q", "a"], .file (Text.encodeUtf8 "B.f();\n") false),
    (["B.java"], .file (Text.encodeUtf8 "class B {}\n") false),
    (["pom.xml"], .file [] false)]⟩, [], [], {}⟩

private def callBelowPom : RunRequest where
  file := ⟨.root, [".q", "a"]⟩
  first := 1
  last := 1
  scriptDir := ⟨.root, []⟩

private def fileBelowPom : SourceFile :=
  ⟨⟨.root, [".q", "a"]⟩, Language.java, ["B.f();"]⟩

private def classB : SourceFile :=
  ⟨⟨.root, ["B.java"]⟩, Language.java, ["class B {}"]⟩

private theorem stat_classB : belowPom.stat ⟨.root, ["B.java"]⟩ =
    .ok (["B.java"], .file (Text.encodeUtf8 "class B {}\n") false) :=
  Site.stat_of_top rfl (by decide) (by decide) (by decide) (by decide) (by decide) nofun

private theorem stat_pom : belowPom.stat ⟨.root, ["pom.xml"]⟩ =
    .ok (["pom.xml"], .file [] false) :=
  Site.stat_of_top rfl (by decide) (by decide) (by decide) (by decide) (by decide) nofun

private theorem resolve_directoryBelowPom : belowPom.resolve ⟨.root, [".q"]⟩ =
    .ok ⟨.root, [".q"]⟩ := by cbv

private theorem findRoot_belowPom :
    Project.findRoot belowPom ⟨.root, [".q"]⟩ Language.java.projectMarkers 10 =
      .ok (some ⟨.root, []⟩) := by
  have hbelow : Project.Unmarked belowPom Language.java.projectMarkers ⟨.root, [".q"]⟩ := by
    intro marker hmarker
    have hchild : Path.child ⟨.root, [".q"]⟩ marker = ⟨.root, [".q", marker]⟩ := by
      fin_cases hmarker <;> cbv
    have hfree : belowPom.tree.walkFrom true linkBudget [] [".q", marker] =
        .ok (.vacant [".q"] marker) := by
      fin_cases hmarker <;> cbv
    rw [hchild]
    apply Site.pathExists_of_vacant rfl ?_ ?_ hfree
    all_goals fin_cases hmarker <;> decide
  have htop : Project.holdsMarker belowPom ⟨.root, []⟩ Language.java.projectMarkers =
      .ok true := by
    have hchild : Path.child ⟨.root, []⟩ "pom.xml" = ⟨.root, ["pom.xml"]⟩ := by decide
    have hthere : belowPom.pathExists (Path.child ⟨.root, []⟩ "pom.xml") = .ok true := by
      rw [hchild, Site.pathExists, Site.ask_of_stat stat_pom]
      rfl
    exact Project.holdsMarker_of_free (List.forall_mem_nil _) hthere
  have hancestors : (Project.ancestors ⟨.root, [".q"]⟩).take 11 =
      [⟨.root, [".q"]⟩, ⟨.root, []⟩] := by decide
  simp [Project.findRoot, resolve_directoryBelowPom, hancestors, Project.firstMarked,
    Project.unmarked_iff.mp hbelow, htop, bind, Except.bind, pure, Except.pure]

private theorem sourceFiles_belowPom :
    Project.sourceFiles belowPom ⟨.root, []⟩ ".java" 6 200 (some ⟨.root, [".q", "a"]⟩) =
      .ok [⟨.root, ["B.java"]⟩] := by
  have hown : belowPom.resolve ⟨.root, [".q", "a"]⟩ = .ok ⟨.root, [".q", "a"]⟩ := by cbv
  have hclass : belowPom.resolve ⟨.root, ["B.java"]⟩ = .ok ⟨.root, ["B.java"]⟩ := by
    have hreal : belowPom.tree.resolve [] [] ⟨.root, ["B.java"]⟩ = .ok ⟨.root, ["B.java"]⟩ :=
      resolve_of_statWithin .top stat_classB
    exact congrArg (Except.mapError Failure.ofResolve) hreal
  have hentries : Project.sortedEntries belowPom ⟨.root, []⟩ =
      .ok [⟨.root, [".q"]⟩, ⟨.root, ["B.java"]⟩, ⟨.root, ["pom.xml"]⟩] := by
    have hnames : belowPom.listNames ⟨.root, []⟩ = .ok [".q", "B.java", "pom.xml"] := by cbv
    rw [Project.sortedEntries, hnames]
    dsimp only
    rw [List.mergeSort_of_pairwise (by decide)]
    rfl
  have hhidden : Project.isHidden ".q" = true ∧ Project.isHidden "B.java" = false ∧
      Project.isHidden "pom.xml" = false := ⟨by cbv, by cbv, by cbv⟩
  have hsuffix : Path.suffix ⟨.root, ["B.java"]⟩ = ".java" ∧
      Path.suffix ⟨.root, ["pom.xml"]⟩ = ".xml" := by decide
  rw [Project.sourceFiles_eq_scanLevels hown]
  simp [Project.scanLevels, Project.scanLevel, hentries, Project.scanEntries, Project.scanEntry,
    Path.name, hhidden, hsuffix, hclass, Site.isDirectory, Site.ask_of_stat stat_classB,
    Site.ask_of_stat stat_pom, isDirectoryEntry, Except.mapError, bind, Except.bind, pure,
    Except.pure, Project.Harvest.append, Project.Harvest.none]

private theorem survey_belowPom : survey belowPom {} fileBelowPom .project =
    .ok ⟨some ⟨.root, []⟩, [⟨.root, ["B.java"]⟩], []⟩ := by
  have hproject : surveyProject belowPom {} fileBelowPom .project =
      .ok (some ⟨.root, []⟩, [⟨.root, ["B.java"]⟩]) := by
    unfold surveyProject
    exact Success.bind_eq_ok.mpr ⟨_, findRoot_belowPom,
      Success.bind_eq_ok.mpr ⟨_, sourceFiles_belowPom, rfl⟩⟩
  exact Success.bind_eq_ok.mpr ⟨_, hproject, rfl⟩

private theorem contextAround_belowPom :
    (contextAround belowPom fileBelowPom 1 1 (some ⟨.root, []⟩) [⟨.root, ["B.java"]⟩]).gathered =
      ⟨[], [⟨"class B {}\n", .projectScope, ⟨.root, ["B.java"]⟩, 1, some ⟨.here, ["B.java"]⟩⟩],
        []⟩ := by
  have hread : readSource belowPom ⟨.root, ["B.java"]⟩ Language.java = .ok classB := by
    have htext : belowPom.readText ⟨.root, ["B.java"]⟩ = .ok "class B {}\n" := by
      rw [Site.readText, Site.readOctets, stat_classB]
      cbv
    have hlines : Text.splitLines "class B {}\n" = ["class B {}"] := by decide
    simp [readSource, htext, SourceFile.ofText, hlines, classB]
  have hown : fileBelowPom.definitions = [] := by cbv
  have hclass : classB.definitions = [⟨"B", 1, 1, "class B {}"⟩] := by cbv
  have himports : fileBelowPom.imports 1 1 = [] := by
    have hcall : Language.java.isImport "B.f();" = false := by decide
    simp [SourceFile.imports, fileBelowPom, Source.statementsFrom, hcall]
  have hwanted : wantedNames Language.java (fileBelowPom.rangeText 1 1) = ["B", "f"] := by cbv
  have hfile : Surrounding.close ⟨.braces, [], 1, 1⟩ [] ["B", "f"] = ([], ["f", "B"]) := by cbv
  have hproject : (ProjectScope.close ⟨Language.java, ⟨.root, []⟩, ⟨.braces, [], 1, 1⟩,
      [(⟨.root, ["B.java"]⟩, .ok ⟨classB, [⟨"B", 1, 1, "class B {}"⟩]⟩)]⟩ ⟨[], [], []⟩
      ["f", "B"]).1 =
        ⟨[], [⟨"class B {}\n", .projectScope, ⟨.root, ["B.java"]⟩, 1, some ⟨.here, ["B.java"]⟩⟩],
          []⟩ := by cbv
  have hdescriptor : fileBelowPom.descriptor = Language.java := rfl
  have hstyle : Language.java.blockStyle = .braces := rfl
  simp only [contextAround, surroundingOf, hdescriptor, hstyle, hown, hwanted, hfile, loadProject,
    List.map_cons, List.map_nil, hread, Except.map, hclass, ProjectScope.importFragments, himports]
  exact hproject

/-- The class is kept beside the main file, at the place that it has below the root. -/
theorem materialize_confined_belowPom :
    Language.java ∈ Language.builtIn ∧
      ∃ r, resolve belowPom {} callBelowPom Language.java .project = .ok r ∧
        r.snippet.projectRoot = some ⟨.root, []⟩ ∧
        Project.NearestMarked belowPom Language.java.projectMarkers 10 ⟨.root, [".q"]⟩
          ⟨.root, []⟩ ∧
        tails r.snippet = [⟨.here, ["Main.java"]⟩, ⟨.here, ["B.java"]⟩] ∧
        ∀ t, Confined [] ((tails r.snippet).map (Path.join ⟨.root, ["w", "java"]⟩)) t
          (outcome (Workspace.materialize ⟨⟨.root, ["w"]⟩, []⟩ r.snippet) t).2 := by
  have hd : Language.java ∈ Language.builtIn := by decide
  have hpath : callBelowPom.sourcePath belowPom.env = .ok ⟨.root, [".q", "a"]⟩ := by cbv
  have hread : readSource belowPom ⟨.root, [".q", "a"]⟩ Language.java = .ok fileBelowPom := by
    cbv
  have haccepted : Accepted belowPom callBelowPom Language.java fileBelowPom :=
    ⟨by decide, by decide, ⟨_, hpath, hread⟩, by decide⟩
  have hlevel : Level.project.lower Language.java.level = .project := rfl
  have hresolve := resolve_eq_snippetWithin belowPom {} haccepted
    (hlevel ▸ (by decide : Level.project.atLeast .file = true))
  rw [hlevel, survey_belowPom] at hresolve
  obtain ⟨-, -, hconfined, -, p, hp, hroot⟩ :=
    materialize_confined ⟨⟨.root, ["w"]⟩, []⟩ hd hresolve
  obtain ⟨directory, hdirectory, hnearest⟩ := hroot
  cases hpath.symm.trans hp
  cases resolve_directoryBelowPom.symm.trans hdirectory
  refine ⟨hd, _, hresolve, rfl, hnearest, ?_, fun t => (hconfined t).1⟩
  obtain ⟨himports, hfragments⟩ := contextAround_mirrored belowPom fileBelowPom 1 1
    (some ⟨.root, []⟩) [⟨.root, ["B.java"]⟩] rfl
  obtain ⟨-, hproject, -⟩ := ofProvenance_snippetWithin fileBelowPom 1 1 .project []
    _ himports hfragments
  have hmain : Path.ofString "Main.java" = ⟨.here, ["Main.java"]⟩ := by decide
  rw [contextAround_belowPom] at hproject
  exact congrArg₂ List.cons hmain (congrArg (List.filterMap (·.relativePath)) hproject)

end Snippets

end SnippetRunner.Workspace
