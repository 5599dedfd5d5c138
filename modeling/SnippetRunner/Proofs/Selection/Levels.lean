import SnippetRunner.Proofs.Selection.Context

/-!
How the levels of support build on each other. Closing only adds: what was chosen or imported
before stands at the front of what there is in the end. Of fragments with the same text the
first one stays and definitions of the same line keep their order, so what is added takes
nothing away: the snippet of a level is contained, in its order, in that of each higher one.
-/
namespace SnippetRunner.Selection

open Source

section Sorting

variable {α : Type} {le : α → α → Bool}

/-- Sorting puts an item behind what is below it and in front of all else. -/
theorem mergeSort_cons_eq (trans : ∀ a b c, le a b → le b c → le a c)
    (total : ∀ a b, le a b || le b a) (a : α) (l : List α) :
    (a :: l).mergeSort le = (l.mergeSort le).filter (fun b => !le a b) ++
      a :: (l.mergeSort le).filter fun b => le a b := by
  obtain ⟨low, high, hcons, hrest, hlow⟩ := List.mergeSort_cons trans total a l
  have hsorted := List.pairwise_mergeSort trans total (a :: l)
  rw [hcons] at hsorted
  have hhigh : ∀ b ∈ high, le a b = true :=
    (List.pairwise_cons.mp (List.pairwise_append.mp hsorted).2.1).1
  have hlow' : ∀ b ∈ low, le a b = false := fun b hb => by simpa using hlow b hb
  have hbelow : (low ++ high).filter (fun b => !le a b) = low := by
    rw [List.filter_append, List.filter_eq_self.mpr fun b hb => by simp [hlow' b hb],
      List.filter_eq_nil_iff.mpr fun b hb => by simp [hhigh b hb], List.append_nil]
  have habove : (low ++ high).filter (fun b => le a b) = high := by
    rw [List.filter_append, List.filter_eq_nil_iff.mpr fun b hb => by simp [hlow' b hb],
      List.filter_eq_self.mpr hhigh, List.nil_append]
  rw [hcons, hrest, hbelow, habove]

/-- A part of a list in its order stays one when both are sorted. -/
theorem mergeSort_sublist (trans : ∀ a b c, le a b → le b c → le a c)
    (total : ∀ a b, le a b || le b a) {xs ys : List α} (h : xs.Sublist ys) :
    (xs.mergeSort le).Sublist (ys.mergeSort le) := by
  induction h with
  | slnil => exact .refl _
  | @cons xs ys a _ ih =>
    refine ih.trans ?_
    obtain ⟨low, high, hcons, hrest, -⟩ := List.mergeSort_cons trans total a ys
    rw [hcons, hrest]
    exact List.Sublist.append_left (List.sublist_cons_self a high) low
  | @cons_cons xs ys a _ ih =>
    rw [mergeSort_cons_eq trans total, mergeSort_cons_eq trans total]
    exact (ih.filter _).append ((ih.filter _).cons_cons a)

end Sorting

theorem definitionLe_trans (a b c : Definition) (hab : definitionLe a b = true)
    (hbc : definitionLe b c = true) : definitionLe a c = true := by
  simp only [definitionLe, decide_eq_true_eq] at *
  omega

theorem definitionLe_total (a b : Definition) :
    (definitionLe a b || definitionLe b a) = true := by
  simp only [definitionLe, Bool.or_eq_true, decide_eq_true_eq]
  omega

private theorem dedupe_go_append (seen : List String) (first more : List Fragment) :
    dedupe.go seen first <+: dedupe.go seen (first ++ more) := by
  induction first generalizing seen with
  | nil => exact List.nil_prefix
  | cons f rest ih =>
    by_cases hseen : Text.strip f.text ∈ seen
    · simpa [dedupe.go, hseen] using ih seen
    · simpa [dedupe.go, hseen] using ih (Text.strip f.text :: seen)

/-- Further fragments displace none of those before them. -/
theorem dedupe_mono {first all : List Fragment} (h : first <+: all) :
    dedupe first <+: dedupe all := by
  obtain ⟨more, rfl⟩ := h
  exact dedupe_go_append [] first more

/-- What a chase has gathered stands in front of what it gathers later. -/
theorem Surrounding.close_extends (s : Surrounding) (chosen : List Definition)
    (wanted : List String) : chosen <+: (s.close chosen wanted).1 := by
  refine Chase.run_invariant (fun c _ => chosen <+: c.state) ?_ ?_ ?_ _ _ (List.prefix_refl _)
  · exact fun c name rest _ h => h
  · intro c name rest _ _ h
    refine h.trans ?_
    change c.state <+: (s.follow c.state name).state
    unfold Surrounding.follow
    split
    · split
      · exact List.prefix_refl _
      · exact List.prefix_append ..
    · exact List.prefix_refl _
  · exact fun c name rest _ _ h => h

/-- One gathering has all of another one, at the front of its imports and definitions. -/
structure Gathered.Within (g g' : Gathered) : Prop where
  imports : g.imports <+: g'.imports
  fragments : g.fragments.Sublist g'.fragments
  definitions : g.fileDefinitions <+: g'.fileDefinitions

namespace Gathered.Within

theorem refl (g : Gathered) : g.Within g :=
  ⟨List.prefix_refl _, .refl _, List.prefix_refl _⟩

theorem trans {a b c : Gathered} (hab : a.Within b) (hbc : b.Within c) : a.Within c :=
  ⟨hab.imports.trans hbc.imports, hab.fragments.trans hbc.fragments,
    hab.definitions.trans hbc.definitions⟩

end Gathered.Within

theorem ProjectScope.follow_within (s : ProjectScope) (g : Gathered) (name : String) :
    g.Within (s.follow g name).state := by
  unfold ProjectScope.follow
  split
  · exact ⟨List.prefix_refl _, .refl _, s.surrounding.close_extends ..⟩
  · split
    · exact .refl g
    · split
      · split
        · exact .refl g
        · exact ⟨List.prefix_refl _, List.sublist_append_left .., List.prefix_refl _⟩
      · exact ⟨List.prefix_append .., List.sublist_append_left .., List.prefix_refl _⟩

/-- Closing in the project starts without fragments of it, so that sorting them at the end
moves none that were there. -/
theorem ProjectScope.close_within (s : ProjectScope) {g : Gathered} (wanted : List String)
    (hnone : g.fragments = []) : g.Within (s.close g wanted).1 := by
  have hrun : g.Within (Chase.run s.names s.follow (.start g) (sortNames wanted)).state := by
    refine Chase.run_invariant (fun c _ => g.Within c.state) ?_ ?_ ?_ _ _ (.refl g)
    · exact fun c name rest _ h => h
    · exact fun c name rest _ _ h => h.trans (s.follow_within c.state name)
    · exact fun c name rest _ _ h => h
  exact ⟨hrun.imports, hnone ▸ List.nil_sublist _, hrun.definitions⟩

def contextAt (s : Site) (source : SourceFile) (first last : Int) (level : Level)
    (root : Option Path) (files : List Path) : Context :=
  if level.atLeast .file then contextAround s source first last root files
  else
    let own :=
      if level.atLeast .import_ then ProjectScope.importFragments source first last else []
    ⟨⟨[], [], own⟩, none, [], []⟩

/-- The searches of its level alone decide whether a block is resolved, and to what. -/
theorem blockSnippet_eq_contextAt (s : Site) (limits : Limits) (source : SourceFile)
    (first last : Int) (level : Level) :
    blockSnippet s limits source first last level =
      (survey s limits source level).map fun found =>
        let context := contextAt s source first last level found.root found.files
        ⟨snippetWithin source first last level found.libraries context, context.passedOver⟩ := by
  cases hfile : level.atLeast .file with
  | true => simp only [blockSnippet_eq s limits source first last level hfile, contextAt, hfile,
      if_true]
  | false =>
    have hproject : level.atLeast .project = false := by
      cases level <;> simp_all [Level.atLeast, Level.rank]
    have hsystem : level.atLeast .system = false := by
      cases level <;> simp_all [Level.atLeast, Level.rank]
    simp [blockSnippet, survey, surveyProject, contextAt, hfile, hproject, hsystem,
      snippetWithin, Except.map, bind, Except.bind, pure, Except.pure]

section Nesting

variable {s : Site} {limits : Limits} {source : SourceFile} {lower upper : Level}

private theorem atLeast_of_atLeast {level : Level} (hle : upper.atLeast lower = true)
    (h : lower.atLeast level = true) : upper.atLeast level = true := by
  simp only [Level.atLeast, decide_eq_true_eq] at *
  omega

/-- Searching the project adds to what the file alone gives. -/
theorem contextAround_within (s : Site) (source : SourceFile) (first last : Int)
    (root : Option Path) (files : List Path) :
    (contextAround s source first last none []).gathered.Within
      (contextAround s source first last root files).gathered := by
  cases root with
  | none => exact .refl _
  | some root => exact ProjectScope.close_within _ _ rfl

/-- The searches of a level are among those of each higher one. -/
theorem survey_of_higher {found' : Survey} (hle : upper.atLeast lower = true)
    (h : survey s limits source upper = .ok found') :
    ∃ found, survey s limits source lower = .ok found ∧
      found.libraries.Sublist found'.libraries ∧
      if lower.atLeast .project then found.root = found'.root ∧ found.files = found'.files
      else found.root = none ∧ found.files = [] := by
  cases hsystem : lower.atLeast .system with
  | true =>
    have hsame : lower = upper := by
      cases lower <;> cases upper <;> simp_all [Level.atLeast, Level.rank]
    subst hsame
    have hproject : lower.atLeast .project = true := by
      cases lower <;> simp_all [Level.atLeast, Level.rank]
    refine ⟨found', h, .refl _, ?_⟩
    rw [if_pos hproject]
    exact ⟨rfl, rfl⟩
  | false =>
    have hsurvey : survey s limits source lower =
        (surveyProject s limits source lower).map fun found => ⟨found.1, found.2, []⟩ := by
      simp only [survey, hsystem]
      cases surveyProject s limits source lower <;> rfl
    cases hproject : lower.atLeast .project with
    | true =>
      have hsearch : surveyProject s limits source lower = surveyProject s limits source upper := by
        simp only [surveyProject, hproject, atLeast_of_atLeast hle hproject]
      rw [hsurvey, hsearch, surveyProject_of_survey h]
      exact ⟨_, rfl, List.nil_sublist _, rfl, rfl⟩
    | false =>
      have hnone : surveyProject s limits source lower = .ok (none, []) := by
        simp [surveyProject, hproject, pure, Except.pure]
      rw [hsurvey, hnone]
      exact ⟨_, rfl, List.nil_sublist _, rfl, rfl⟩

/-- What is gathered at a level is within what is gathered at a higher one. -/
theorem contextAt_within (s : Site) (source : SourceFile) (first last : Int)
    {root root' : Option Path} {files files' : List Path} (hle : upper.atLeast lower = true)
    (hfound : if lower.atLeast .project then root = root' ∧ files = files'
      else root = none ∧ files = []) :
    (contextAt s source first last lower root files).gathered.Within
      (contextAt s source first last upper root' files').gathered := by
  cases hfile : lower.atLeast .file with
  | true =>
    have hupper := atLeast_of_atLeast hle hfile
    simp only [contextAt, hfile, hupper, if_true]
    split at hfound
    · rw [hfound.1, hfound.2]
      exact .refl _
    · rw [hfound.1, hfound.2]
      exact contextAround_within s source first last root' files'
  | false =>
    have hown : (if lower.atLeast .import_ then ProjectScope.importFragments source first last
        else []) <+: if upper.atLeast .import_ then
          ProjectScope.importFragments source first last else [] := by
      cases himport : lower.atLeast .import_ with
      | true => simp [atLeast_of_atLeast hle himport]
      | false => exact List.nil_prefix
    have hlower : (contextAt s source first last lower root files).gathered.Within
        ⟨[], [], if upper.atLeast .import_ then
          ProjectScope.importFragments source first last else []⟩ := by
      simp only [contextAt, hfile]
      exact ⟨hown, .refl _, List.prefix_refl _⟩
    refine hlower.trans ?_
    cases hupper : upper.atLeast .file with
    | false =>
      simp only [contextAt, hupper]
      exact .refl _
    | true =>
      have himport : upper.atLeast .import_ = true := atLeast_of_atLeast hupper (by decide)
      simp only [contextAt, hupper, himport, if_true]
      refine Gathered.Within.trans ?_ (contextAround_within s source first last root' files')
      exact ⟨List.prefix_refl _, .refl _, List.nil_prefix⟩

/-- More that is gathered makes a snippet that contains the one of less. -/
theorem snippetWithin_sublist {context context' : Context} (source : SourceFile)
    (first last : Int) (level level' : Level) (libraries libraries' : List Path)
    (h : context.gathered.Within context'.gathered) :
    (snippetWithin source first last level libraries context).fragments.Sublist
      (snippetWithin source first last level' libraries' context').fragments := by
  have himports := (dedupe_mono h.imports).sublist
  have hdefinitions := mergeSort_sublist definitionLe_trans definitionLe_total
    h.definitions.sublist
  exact ((himports.append h.fragments).append (hdefinitions.map _)).append (.refl _)

end Nesting

theorem lower_eq_self {level declared : Level} (h : declared.atLeast level = true) :
    level.lower declared = level := by
  cases level <;> cases declared <;> simp_all [Level.atLeast, Level.lower, Level.rank]

/-- The searches of its level decide whether an accepted request is resolved, and to what. -/
theorem resolve_eq_contextAt (s : Site) (limits : Limits) {request : RunRequest}
    {d : Descriptor} {source : SourceFile} {level : Level}
    (haccepted : Accepted s request d source) (hbloc : level.atLeast .bloc = true)
    (hdeclared : d.level.atLeast level = true) :
    resolve s limits request d level =
      (survey s limits source level).map fun found =>
        let last := min request.last (source.length : Int)
        let context := contextAt s source request.first last level found.root found.files
        ⟨snippetWithin source request.first last level found.libraries context,
          context.passedOver⟩ := by
  have hlevel : level.lower d.level = level := lower_eq_self hdeclared
  rw [resolve_of_accepted s limits haccepted (by rw [hlevel]; exact hbloc), hlevel]
  exact blockSnippet_eq_contextAt s limits source request.first (min request.last source.length)
    level

/-- An accepted request that is resolved at a level is resolved at each lower one from that
of a block on, and all its fragments and libraries are among those of the higher level, in the
same order. Only a search can fail. -/
theorem resolve_levels_nested {s : Site} {limits : Limits} {request : RunRequest}
    {d : Descriptor} {source : SourceFile} (lower upper : Level)
    (haccepted : Accepted s request d source) (hbloc : lower.atLeast .bloc = true)
    (hle : upper.atLeast lower = true) (hdeclared : d.level.atLeast upper = true) :
    (∀ failure, resolve s limits request d upper = .error failure ↔
      survey s limits source upper = .error failure) ∧
    ∀ r', resolve s limits request d upper = .ok r' →
      ∃ r, resolve s limits request d lower = .ok r ∧
        r.snippet.fragments.Sublist r'.snippet.fragments ∧
        r.snippet.libraries.Sublist r'.snippet.libraries := by
  have hupper := resolve_eq_contextAt s limits haccepted (atLeast_of_atLeast hle hbloc) hdeclared
  have hlower := resolve_eq_contextAt s limits haccepted hbloc (atLeast_of_atLeast hdeclared hle)
  rw [hupper, hlower]
  constructor
  · intro failure
    cases survey s limits source upper <;> simp [Except.map]
  · intro r' hr'
    obtain ⟨found', hfound', rfl⟩ := Success.map_eq_ok.mp hr'
    obtain ⟨found, hfound, hlibraries, hsearched⟩ := survey_of_higher hle hfound'
    rw [hfound]
    exact ⟨_, rfl, snippetWithin_sublist source request.first _ lower upper _ _
      (contextAt_within s source request.first _ hle hsearched), hlibraries⟩

section TwoLets

private def lets : Descriptor where
  name := "l"
  level := .project
  extension := ".l"
  commands := []
  template := ""
  definitionPatterns :=
    [.seq .start (.seq (.text "let ") (.name (.many ⟨false, [.word]⟩ true)))]

/-- The last line uses a name of its file and one that only the other file defines. -/
private def twoLets : Site :=
  ⟨⟨[([".git"], .directory),
    (["A.l"], .file (Text.encodeUtf8 "let a;\na(b)\n") false),
    (["B.l"], .file (Text.encodeUtf8 "let b\n") false)]⟩, [], [], {}⟩

private def useOfLets : RunRequest where
  file := ⟨.root, ["A.l"]⟩
  first := 2
  last := 2
  scriptDir := ⟨.root, []⟩

private def fileOfUse : SourceFile :=
  ⟨⟨.root, ["A.l"]⟩, lets, ["let a;", "a(b)"]⟩

private def ownLet : Fragment := ⟨"let a;", .fileScope, ⟨.root, ["A.l"]⟩, 1, none⟩

private def otherLet : Fragment := ⟨"let b", .projectScope, ⟨.root, ["B.l"]⟩, 1, none⟩

private def lineOfUse : Fragment := ⟨"a(b)", .selection, ⟨.root, ["A.l"]⟩, 2, none⟩

private def snippetInFile : Snippet where
  descriptor := lets
  level := .file
  fragments := [ownLet, lineOfUse]
  misses := [⟨"b", .file⟩, ⟨"let", .file⟩]

private def snippetInProject : Snippet where
  descriptor := lets
  level := .project
  fragments := [otherLet, ownLet, lineOfUse]
  projectRoot := some ⟨.root, []⟩
  misses := [⟨"let", .project⟩]

theorem resolve_levels_nested_twoLets :
    resolve twoLets {} useOfLets lets .file = .ok ⟨snippetInFile, []⟩ ∧
      resolve twoLets {} useOfLets lets .project = .ok ⟨snippetInProject, []⟩ ∧
      snippetInFile.fragments.Sublist snippetInProject.fragments ∧
      snippetInFile.libraries.Sublist snippetInProject.libraries := by
  have haccepted : Accepted twoLets useOfLets lets fileOfUse :=
    ⟨by decide, by decide, ⟨⟨.root, ["A.l"]⟩, by cbv, by cbv⟩, by decide⟩
  have hlower : resolve twoLets {} useOfLets lets .file = .ok ⟨snippetInFile, []⟩ := by cbv
  have hupper : resolve twoLets {} useOfLets lets .project = .ok ⟨snippetInProject, []⟩ := by cbv
  obtain ⟨r, hr, hfragments, hlibraries⟩ := (resolve_levels_nested .file .project haccepted
    (by decide) (by decide) (by decide)).2 _ hupper
  cases hlower.symm.trans hr
  exact ⟨hlower, hupper, hfragments, hlibraries⟩

end TwoLets

end SnippetRunner.Selection
