import SnippetRunner.Proofs.Selection.Accounting
import SnippetRunner.Proofs.Selection.Imported
import SnippetRunner.Proofs.Selection.LineNumbers
import SnippetRunner.Proofs.Source.Nearest

/-!
How the fragments of a snippet are arranged. The imports come first, then what is taken from the
project, then what is taken from the file, and the selection last. Imports differ by more than
the blanks around them. What the project gives is in the order in which its files were found and
in that of their lines, what the file gives in that of its lines, and neither gives anything twice.
-/
namespace SnippetRunner.Selection

open Source

/-- The file of a fragment was found before that of another one, or it is the same file and the
fragment begins above the other one. -/
def Before (files : List Path) (a b : Fragment) : Prop :=
  files.idxOf a.origin < files.idxOf b.origin ∨ a.origin = b.origin ∧ a.line < b.line

/-- The definition takes lines of the file, none of them in `first..last`, and has their text. -/
structure TakesLines (source : SourceFile) (first last : Int) (e : Definition) : Prop where
  starts : 1 ≤ e.start
  ordered : e.start ≤ e.stop
  stops : e.stop ≤ source.length
  outside : (e.stop : Int) < first ∨ last < (e.start : Int)
  text : e.text = Text.joinLines ((source.lines.take e.stop).drop (e.start - 1))

def copiedFragment (source : SourceFile) (e : Definition) : Fragment :=
  ⟨e.text, .projectScope, source.path, e.start, none⟩

/-- Two fragments are copied from definitions of one file, and one of these swallows the other. -/
def Entangled (s : Site) (d : Descriptor) (a b : Fragment) : Prop :=
  ∃ source e e', readSource s source.path d = .ok source ∧ e ∈ source.definitions ∧
    Swallows source e e' ∧
    (a = copiedFragment source e ∧ b = copiedFragment source e' ∨
      b = copiedFragment source e ∧ a = copiedFragment source e')

/-- The fragments of a snippet in their groups. Two definitions begin with the same line just if one
of them swallows the other. -/
structure Arranged (s : Site) (source : SourceFile) (first last : Int) (files : List Path)
    (snippet : Snippet) (imports copied : List Fragment) (own : List Definition) : Prop where
  groups : snippet.fragments = imports ++ copied ++ own.map (fileFragment source) ++
    [⟨source.rangeText first last, .selection, source.path, first, none⟩]
  imports_marked : ∀ f ∈ imports, f.provenance = .import_
  imports_distinct : (imports.map fun f => Text.strip f.text).Nodup
  copied_marked : ∀ f ∈ copied, f.provenance = .projectScope ∧ f.origin ∈ files
  copied_once : copied.Nodup
  copied_sorted : copied.Pairwise fun a b => ¬ Before files b a
  own_lines : ∀ e ∈ own, TakesLines source first last e
  own_once : (own.map (fileFragment source)).Nodup
  own_sorted : own.Pairwise fun a b => a.start ≤ b.start
  copied_ascending : copied.Pairwise (Before files) ↔
    copied.Pairwise fun a b => ¬ Entangled s source.descriptor a b
  own_ascending : (own.Pairwise fun a b => a.start < b.start) ↔
    own.Pairwise fun a b => ¬ Swallows source a b ∧ ¬ Swallows source b a
  ascending : MarksApart source.descriptor →
    copied.Pairwise (Before files) ∧ own.Pairwise fun a b => a.start < b.start

section Own

variable {s : ProjectScope} {g : Gathered}

theorem ProjectScope.follow_picked (name : String) (h : s.surrounding.Picked g.fileDefinitions) :
    s.surrounding.Picked (s.follow g name).state.fileDefinitions := by
  unfold ProjectScope.follow
  split
  · exact (Surrounding.close_closing s.surrounding g.fileDefinitions [name] h).picked
  · split
    · exact h
    · split
      · split <;> exact h
      · exact h

theorem ProjectScope.close_picked (wanted : List String)
    (h : s.surrounding.Picked g.fileDefinitions) :
    s.surrounding.Picked (s.close g wanted).1.fileDefinitions := by
  refine Chase.run_invariant
    (fun (c : Chase Gathered) _ => s.surrounding.Picked c.state.fileDefinitions) ?_ ?_ ?_ _ _ h
  · exact fun c name rest _ hc => hc
  · exact fun c name rest _ _ hc => ProjectScope.follow_picked name hc
  · exact fun c name rest _ _ hc => hc

/-- Whatever the level, the definitions of the file were picked for their names. -/
theorem contextAt_picked (s : Site) (source : SourceFile) (first last : Int) (level : Level)
    (root : Option Path) (files : List Path) :
    (surroundingOf source first last).Picked
      (contextAt s source first last level root files).gathered.fileDefinitions := by
  unfold contextAt
  split
  · have hclosing := Surrounding.close_closing (surroundingOf source first last) []
      (wantedNames source.descriptor (source.rangeText first last)) (.nil _)
    cases root with
    | none => exact hclosing.picked
    | some root =>
      exact (scopeAround s source first last root files).close_picked _ hclosing.picked
  · exact .nil _

theorem takesLines_of_picked {source : SourceFile} {first last : Int} {own : List Definition}
    (h : (surroundingOf source first last).Picked own) {e : Definition} (he : e ∈ own) :
    e ∈ source.definitions ∧ TakesLines source first last e := by
  have hmem := mem_of_pick? (h.denotes e he)
  obtain ⟨hdefinition, -, houtside⟩ := mem_candidates_iff.mp hmem
  obtain ⟨hpos, hordered, hinside, htext⟩ := lines_of_mem hdefinition
  exact ⟨hdefinition, hpos, hordered, hinside, houtside, htext⟩

/-- Fragments of different definitions of a file differ. -/
theorem fileFragments_nodup {source : SourceFile} {first last : Int} {own : List Definition}
    (hlines : ∀ line ∈ source.lines, Text.Unbroken line.toList)
    (h : (surroundingOf source first last).Picked own) :
    (own.map (fileFragment source)).Nodup := by
  refine h.nodup.map_on ?_
  intro a ha b hb hsame
  simp only [fileFragment, Fragment.mk.injEq, Int.natCast_inj] at hsame
  exact eq_of_text hlines (takesLines_of_picked h ha).1 (takesLines_of_picked h hb).1
    hsame.2.2.2.1 hsame.1

/-- Picked definitions that are sorted ascend unless one swallows another. -/
theorem own_ascending_iff {source : SourceFile} {first last : Int} {own : List Definition}
    (h : (surroundingOf source first last).Picked own)
    (hsorted : own.Pairwise fun a b => a.start ≤ b.start) :
    (own.Pairwise fun a b => a.start < b.start) ↔
      own.Pairwise fun a b => ¬ Swallows source a b ∧ ¬ Swallows source b a := by
  have hiff : ∀ a ∈ own, ∀ b ∈ own, a ≠ b →
      (a.start = b.start ↔ Swallows source a b ∨ Swallows source b a) := fun a ha b hb hne =>
    start_eq_iff_swallows (takesLines_of_picked h ha).1 (takesLines_of_picked h hb).1 hne
  constructor
  · intro hstrict
    refine (hstrict.and h.nodup).imp_of_mem ?_
    rintro a b ha hb ⟨hlt, hne⟩
    exact not_or.mp ((hiff a ha b hb hne).not.mp hlt.ne)
  · intro hnone
    refine ((hsorted.and h.nodup).and hnone).imp_of_mem ?_
    rintro a b ha hb ⟨⟨hle, hne⟩, hswallows⟩
    exact lt_of_le_of_ne hle ((hiff a ha b hb hne).not.mpr (not_or.mpr hswallows))

end Own

section Copied

/-- Fragments of files that were found, each fragment once, and two of them from one line only if
they are entangled. -/
structure Drawn (s : Site) (d : Descriptor) (files : List Path) (fragments : List Fragment) :
    Prop where
  found : ∀ f ∈ fragments, f.origin ∈ files
  once : fragments.Nodup
  apart : fragments.Pairwise fun a b => a.origin = b.origin → a.line = b.line → Entangled s d a b

variable {s : Site} {d : Descriptor} {files : List Path} {a b : Fragment}

theorem Entangled.symm (h : Entangled s d a b) : Entangled s d b a := by
  obtain ⟨source, e, e', hread, he, hswallows, hcopied⟩ := h
  exact ⟨source, e, e', hread, he, hswallows, hcopied.symm⟩

theorem Entangled.same_line (h : Entangled s d a b) : a.origin = b.origin ∧ a.line = b.line := by
  obtain ⟨source, e, e', -, he, hswallows, hcopied⟩ := h
  have hsame := (hswallows.precedes.start_eq_iff he).mpr hswallows
  rcases hcopied with ⟨rfl, rfl⟩ | ⟨rfl, rfl⟩
  · exact ⟨rfl, congrArg Nat.cast hsame⟩
  · exact ⟨rfl, congrArg Nat.cast hsame.symm⟩

theorem not_entangled (hd : MarksApart d) : ¬ Entangled s d a b := by
  rintro ⟨source, e, e', hread, he, hswallows, -⟩
  have hdescriptor := (readSource_ok hread).1
  exact not_swallows (hdescriptor ▸ hd) he hswallows

theorem Drawn.perm {fragments fragments' : List Fragment} (h : Drawn s d files fragments)
    (hperm : fragments'.Perm fragments) : Drawn s d files fragments' where
  found := fun f hf => h.found f (hperm.mem_iff.mp hf)
  once := hperm.nodup_iff.mpr h.once
  apart := (hperm.pairwise_iff fun hab horigin hline =>
    (hab horigin.symm hline.symm).symm).mpr h.apart

/-- Sorted fragments ascend unless two of them are entangled. -/
theorem Drawn.ascending_iff {fragments : List Fragment} (h : Drawn s d files fragments)
    (hsorted : fragments.Pairwise fun a b => files.idxOf a.origin < files.idxOf b.origin ∨
      files.idxOf a.origin = files.idxOf b.origin ∧ a.line ≤ b.line) :
    fragments.Pairwise (Before files) ↔ fragments.Pairwise fun a b => ¬ Entangled s d a b := by
  constructor
  · refine fun hstrict => hstrict.imp ?_
    intro a b hbefore hentangled
    obtain ⟨horigin, hline⟩ := hentangled.same_line
    rcases hbefore with hless | ⟨-, hless⟩
    · rw [horigin] at hless
      exact lt_irrefl _ hless
    · exact hless.ne hline
  · intro hnone
    refine ((hsorted.and h.apart).and hnone).imp_of_mem ?_
    rintro a b ha hb ⟨⟨hless | ⟨hindex, hle⟩, hapart⟩, hfree⟩
    · exact Or.inl hless
    · have horigin : a.origin = b.origin := (List.idxOf_inj (h.found a ha)).mp hindex
      exact Or.inr ⟨horigin, lt_of_le_of_ne hle fun hline => hfree (hapart horigin hline)⟩

/-- Definitions that are copied for different names differ, and in one file so do their lines. -/
theorem drawn_hits {scope : ProjectScope} {hits : List Hit}
    (hfiles : scope.files = loadProject s d files) (honce : (hits.map (·.name)).Nodup)
    (hfound : ∀ h ∈ hits, FirstDefinition scope.files h.name h.file h.definition) :
    Drawn s d files (hits.map Hit.fragment) := by
  have hread := fun h (hh : h ∈ hits) =>
    ProjectScope.of_readable hfiles (ProjectScope.mem_readable_of_first (hfound h hh))
  have hdefinition : ∀ h ∈ hits, h.definition ∈ h.file.source.definitions ∧
      h.definition.name = h.name := by
    intro h hh
    obtain ⟨-, -, -, -, -, hfind⟩ := hfound h hh
    rw [(hread h hh).2.2] at hfind
    exact ⟨List.mem_of_find?_eq_some hfind, by simpa using List.find?_some hfind⟩
  have hsource : ∀ h ∈ hits, ∀ k ∈ hits, h.file.source.path = k.file.source.path →
      h.file.source = k.file.source := by
    intro h hh k hk hpath
    have hsame := (hread h hh).2.1
    rw [hpath, (hread k hk).2.1] at hsame
    exact (Except.ok.inj hsame).symm
  have hnames : hits.Pairwise fun h k => h.name ≠ k.name := List.pairwise_map.mp honce
  refine ⟨?_, ?_, ?_⟩
  · intro f hf
    obtain ⟨h, hh, rfl⟩ := List.mem_map.mp hf
    exact (hread h hh).1
  · refine List.pairwise_map.mpr (hnames.imp_of_mem ?_)
    intro h k hh hk hne hsame
    simp only [Hit.fragment, Fragment.mk.injEq, Int.natCast_inj] at hsame
    obtain ⟨htext, -, hpath, hstart, -⟩ := hsame
    obtain ⟨hh', hname⟩ := hdefinition h hh
    obtain ⟨hk', hname'⟩ := hdefinition k hk
    rw [← hsource h hh k hk hpath] at hk'
    have hsame := eq_of_text (readSource_unbroken (hread h hh).2.1) hh' hk' hstart htext
    exact hne (hname.symm.trans ((congrArg _ hsame).trans hname'))
  · refine List.pairwise_map.mpr (hnames.imp_of_mem ?_)
    intro h k hh hk hne hpath hstart
    simp only [Hit.fragment, Int.natCast_inj] at hpath hstart
    obtain ⟨hh', hname⟩ := hdefinition h hh
    obtain ⟨hk', hname'⟩ := hdefinition k hk
    have hfile := hsource h hh k hk hpath
    rw [← hfile] at hk'
    have hdiffer : h.definition ≠ k.definition := fun hsame =>
      hne (hname.symm.trans ((congrArg _ hsame).trans hname'))
    rcases (start_eq_iff_swallows hh' hk' hdiffer).mp hstart with hswallows | hswallows
    · exact ⟨_, _, _, (hread h hh).2.1, hh', hswallows, Or.inl ⟨rfl, by rw [hfile]; rfl⟩⟩
    · exact ⟨_, _, _, (hread h hh).2.1, hk', hswallows, Or.inr ⟨by rw [hfile]; rfl, rfl⟩⟩

/-- Files that are kept whole differ by where they come from. -/
theorem ProjectScope.WholeFiles.drawn {scope : ProjectScope} {own : List Fragment} {g : Gathered}
    (hfiles : scope.files = loadProject s d files) (h : scope.WholeFiles own g) :
    Drawn s d files g.fragments where
  found := by
    intro f hf
    obtain ⟨file, hfile, rfl⟩ := h.whole f hf
    exact (ProjectScope.of_readable hfiles hfile).1
  once := List.Nodup.of_map _ h.once
  apart := (List.pairwise_map.mp h.once).imp fun hne hsame => absurd hsame hne

theorem contextAt_drawn (s : Site) (source : SourceFile) (first last : Int) (level : Level)
    {root : Option Path} (files : List Path) (hroot : root = none → files = []) :
    Drawn s source.descriptor files
      (contextAt s source first last level root files).gathered.fragments := by
  have hnone : Drawn s source.descriptor files [] := ⟨by simp, List.nodup_nil, .nil⟩
  unfold contextAt
  split
  · cases root with
    | none => exact hnone
    | some root =>
      cases hlayout : source.descriptor.projectLayout with
      | inline =>
        obtain ⟨hits, hexact, hperm, -⟩ := contextAround_exact s source first last (some root)
          files hlayout hroot
        have hfound : ∀ h ∈ hits, FirstDefinition
            (scopeAround s source first last root files).files h.name h.file h.definition :=
          fun h hh => ((hexact.hits_iff h).mp hh).2.2
        exact (drawn_hits rfl hexact.hits_once hfound).perm hperm
      | mirrored =>
        exact (contextAround_wholeFiles s source first last root files hlayout).drawn rfl
  · exact hnone

end Copied

section Sorted

variable {s : ProjectScope} {a b : Fragment}

theorem ProjectScope.fragmentLe_iff : s.fragmentLe a b = true ↔
    s.orderOf a.origin < s.orderOf b.origin ∨
      s.orderOf a.origin = s.orderOf b.origin ∧ a.line ≤ b.line := by
  simp [ProjectScope.fragmentLe]

theorem ProjectScope.fragmentLe_trans (s : ProjectScope) (a b c : Fragment)
    (hab : s.fragmentLe a b = true) (hbc : s.fragmentLe b c = true) :
    s.fragmentLe a c = true := by
  rw [ProjectScope.fragmentLe_iff] at *
  omega

theorem ProjectScope.fragmentLe_total (s : ProjectScope) (a b : Fragment) :
    (s.fragmentLe a b || s.fragmentLe b a) = true := by
  rw [Bool.or_eq_true, ProjectScope.fragmentLe_iff, ProjectScope.fragmentLe_iff]
  omega

/-- The place of a file in the order of discovery is its place in the list of the files found. -/
theorem ProjectScope.orderOf_eq {site : Site} {d : Descriptor} {files : List Path}
    (hfiles : s.files = loadProject site d files) (p : Path) : s.orderOf p = files.idxOf p := by
  simp [ProjectScope.orderOf, hfiles, loadProject, List.findIdx_map, List.idxOf, Function.comp_def]

/-- What the project gives is sorted in the end. -/
theorem contextAt_sorted (s : Site) (source : SourceFile) (first last : Int) (level : Level)
    (root : Option Path) (files : List Path) :
    (contextAt s source first last level root files).gathered.fragments.Pairwise fun a b =>
      files.idxOf a.origin < files.idxOf b.origin ∨
        files.idxOf a.origin = files.idxOf b.origin ∧ a.line ≤ b.line := by
  unfold contextAt
  split
  · cases root with
    | none => exact List.Pairwise.nil
    | some root =>
      let scope := scopeAround s source first last root files
      have hsorted : ∀ fragments : List Fragment,
          (fragments.mergeSort scope.fragmentLe).Pairwise fun a b => scope.fragmentLe a b = true :=
        List.pairwise_mergeSort scope.fragmentLe_trans scope.fragmentLe_total
      refine (hsorted _).imp ?_
      intro a b hab
      rw [ProjectScope.fragmentLe_iff] at hab
      simpa only [ProjectScope.orderOf_eq (s := scope) rfl] using hab
  · exact List.Pairwise.nil

end Sorted

theorem snippetWithin_arranged (s : Site) {source : SourceFile} (first last : Int)
    (level : Level) (libraries : List Path) {root : Option Path} {files : List Path}
    (hlines : ∀ line ∈ source.lines, Text.Unbroken line.toList) (hroot : root = none → files = []) :
    ∃ imports copied own, Arranged s source first last files
      (snippetWithin source first last level libraries
        (contextAt s source first last level root files)) imports copied own := by
  obtain ⟨himports, hproject⟩ := contextAt_provenance s source first last level hroot
  have hpicked := contextAt_picked s source first last level root files
  have hdrawn := contextAt_drawn s source first last level files hroot
  have hcopied := contextAt_sorted s source first last level root files
  set context := contextAt s source first last level root files
  have hperm := List.mergeSort_perm context.gathered.fileDefinitions definitionLe
  have hown : (surroundingOf source first last).Picked
      (context.gathered.fileDefinitions.mergeSort definitionLe) :=
    ⟨hperm.nodup_iff.mpr hpicked.nodup, fun e he => hpicked.denotes e (hperm.mem_iff.mp he)⟩
  have hsorted : (context.gathered.fileDefinitions.mergeSort definitionLe).Pairwise
      fun a b => a.start ≤ b.start := by
    simpa [definitionLe] using List.pairwise_mergeSort definitionLe_trans definitionLe_total
      context.gathered.fileDefinitions
  have honce := dedupe_onceEach context.gathered.imports
  refine ⟨dedupe context.gathered.imports, context.gathered.fragments,
    context.gathered.fileDefinitions.mergeSort definitionLe, ?_⟩
  exact {
    groups := rfl
    imports_marked := fun f hf => himports f (honce.sublist.subset hf)
    imports_distinct := honce.distinct
    copied_marked := fun f hf => ⟨hproject f hf, hdrawn.found f hf⟩
    copied_once := hdrawn.once
    copied_sorted := by
      refine hcopied.imp ?_
      rintro a b hle (hlt | ⟨horigin, hlt⟩)
      · omega
      · rw [horigin] at hle
        omega
    own_lines := fun e he => (takesLines_of_picked hown he).2
    own_once := fileFragments_nodup hlines hown
    own_sorted := hsorted
    copied_ascending := hdrawn.ascending_iff hcopied
    own_ascending := own_ascending_iff hown hsorted
    ascending := by
      intro hd
      refine ⟨(hdrawn.ascending_iff hcopied).mpr ?_, (own_ascending_iff hown hsorted).mpr ?_⟩
      · exact hcopied.imp fun _ => not_entangled hd
      · refine List.Pairwise.imp_of_mem ?_ hsorted
        intro a b ha hb _
        exact ⟨not_swallows hd (takesLines_of_picked hown ha).1,
          not_swallows hd (takesLines_of_picked hown hb).1⟩ }

/-- A request from the level of a block on is resolved unless a search fails, and its fragments
are arranged in their groups. -/
theorem resolve_arranged (s : Site) (limits : Limits) {request : RunRequest} {d : Descriptor}
    {level : Level} {source : SourceFile} (haccepted : Accepted s request d source)
    (hlevel : (level.lower d.level).atLeast .bloc = true) :
    (∀ failure, resolve s limits request d level = .error failure ↔
      survey s limits source (level.lower d.level) = .error failure) ∧
    ∀ r, resolve s limits request d level = .ok r →
      ∃ found imports copied own, survey s limits source (level.lower d.level) = .ok found ∧
        Arranged s source request.first (min request.last source.length) found.files r.snippet
          imports copied own := by
  obtain ⟨p, -, hread⟩ := haccepted.readable
  rw [resolve_of_accepted s limits haccepted hlevel, blockSnippet_eq_contextAt]
  constructor
  · intro failure
    exact Success.map_eq_error
  · intro r hr
    obtain ⟨found, hfound, rfl⟩ := Success.map_eq_ok.mp hr
    have hroot := surveyProject_root_none (surveyProject_of_survey hfound)
    obtain ⟨imports, copied, own, harranged⟩ := snippetWithin_arranged s request.first
      (min request.last source.length) (level.lower d.level) found.libraries
      (readSource_unbroken hread) hroot
    exact ⟨found, imports, copied, own, hfound, harranged⟩

/-- The fragments of the file are told by their mark. -/
theorem Arranged.own_eq {s : Site} {source : SourceFile} {first last : Int} {files : List Path}
    {snippet : Snippet} {imports copied : List Fragment} {own : List Definition}
    (h : Arranged s source first last files snippet imports copied own) :
    snippet.fragments.filter (·.provenance = .fileScope) = own.map (fileFragment source) := by
  have himports : imports.filter (·.provenance = .fileScope) = [] := by
    refine List.filter_eq_nil_iff.mpr fun f hf => ?_
    simp [h.imports_marked f hf]
  have hcopied : copied.filter (·.provenance = .fileScope) = [] := by
    refine List.filter_eq_nil_iff.mpr fun f hf => ?_
    simp [(h.copied_marked f hf).1]
  have hown : (own.map (fileFragment source)).filter (·.provenance = .fileScope) =
      own.map (fileFragment source) := by
    refine List.filter_eq_self.mpr fun f hf => ?_
    obtain ⟨e, -, rfl⟩ := List.mem_map.mp hf
    rfl
  rw [h.groups, List.filter_append, List.filter_append, List.filter_append, himports, hcopied, hown]
  simp

section Swallowing

private def assigning : Descriptor where
  name := "u"
  level := .project
  extension := ".u"
  commands := []
  blockStyle := .indent
  definitionPatterns :=
    [.sequence [.start, .optional (.text "@"), .name (.many ⟨false, [.word]⟩ true), .blanks,
      .text "="]]

/-- The last line needs both assignments, and the mark of the first one makes it a decorator of the
second one. -/
private def markedAssignments : Site :=
  ⟨⟨[(["A.u"], .file (Text.encodeUtf8 "@a = 1\nb = 2\na + b\n") false)]⟩, [], [], {}⟩

private def lastLineOfA : RunRequest where
  file := ⟨.root, ["A.u"]⟩
  first := 3
  last := 3
  scriptDir := ⟨.root, []⟩

private def fileA : SourceFile :=
  ⟨⟨.root, ["A.u"]⟩, assigning, ["@a = 1", "b = 2", "a + b"]⟩

private def snippetOfA : Snippet where
  descriptor := assigning
  level := .file
  fragments :=
    [⟨"@a = 1", .fileScope, ⟨.root, ["A.u"]⟩, 1, none⟩,
     ⟨"@a = 1\nb = 2", .fileScope, ⟨.root, ["A.u"]⟩, 1, none⟩,
     ⟨"a + b", .selection, ⟨.root, ["A.u"]⟩, 3, none⟩]
  projectRoot := none
  misses := []

/-- Both fragments of the file begin with its first line. -/
theorem resolve_arranged_markedAssignments :
    resolve markedAssignments {} lastLineOfA assigning .file = .ok ⟨snippetOfA, []⟩ ∧
      ∃ imports copied own,
        Arranged markedAssignments fileA 3 3 [] snippetOfA imports copied own ∧
        (own.map (fileFragment fileA)).map (·.line) = [1, 1] ∧
        ¬ own.Pairwise fun a b => a.start < b.start := by
  have haccepted : Accepted markedAssignments lastLineOfA assigning fileA :=
    ⟨by decide, by decide, ⟨⟨.root, ["A.u"]⟩, by cbv, by cbv⟩, by decide⟩
  have hsurvey : survey markedAssignments {} fileA .file = .ok ⟨none, [], []⟩ := by cbv
  have hresolve : resolve markedAssignments {} lastLineOfA assigning .file =
      .ok ⟨snippetOfA, []⟩ := by
    cbv
  have hlevel : (Level.file.lower assigning.level).atLeast .bloc = true := by decide
  obtain ⟨found, imports, copied, own, hfound, harranged⟩ :=
    (resolve_arranged markedAssignments {} haccepted hlevel).2 _ hresolve
  cases hsurvey.symm.trans hfound
  have hlines : (own.map (fileFragment fileA)).map (·.line) = [1, 1] := by
    rw [← harranged.own_eq]
    decide
  refine ⟨hresolve, imports, copied, own, harranged, hlines, fun hstrict => ?_⟩
  have hmapped : ((own.map (fileFragment fileA)).map (·.line)).Pairwise (· < ·) := by
    rw [List.map_map]
    exact List.pairwise_map.mpr (hstrict.imp fun hlt => by simpa [fileFragment] using hlt)
  rw [hlines] at hmapped
  simp at hmapped

end Swallowing

end SnippetRunner.Selection
