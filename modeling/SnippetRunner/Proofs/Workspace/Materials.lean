import Mathlib.Data.List.Nodup
import SnippetRunner.Proofs.FileTree.Writing
import SnippetRunner.Proofs.Selection.Mirrored
import SnippetRunner.Workspace.Materials

/-!
What the files of a run hold once all of them are written. The main file is written first
and the mirrored ones after it, so that a later write may undo an earlier one; none does if
the paths lead to different files. In a language directory without links and devices they
do unless a file of the project has the place of the main file.
-/
namespace SnippetRunner.Workspace

open FileTree Success

def Holds (t : FileTree) (cwd : Location) (p : Path) (text : String) : Prop :=
  ∃ loc x, t.stat cwd p = .ok (loc, .file (Text.encodeUtf8 text) x)

def LeadsToFile (t : FileTree) (cwd : Location) (p : Path) : Prop :=
  ∃ loc octets x, t.stat cwd p = .ok (loc, .file octets x)

/-- Two paths do not lead to the same place. -/
def Apart (t : FileTree) (cwd : Location) (p q : Path) : Prop :=
  ∀ loc e e', t.stat cwd p = .ok (loc, e) → t.stat cwd q ≠ .ok (loc, e')

/-- From one tree to the next one by writing a text to a path: it takes the text, and nothing
else changes but for directories that are new. -/
structure Wrote (cwd : Location) (p : Path) (text : String) (t t' : FileTree) : Prop where
  grown : Grown t t'
  took : ∃ loc e, t'.stat cwd p = .ok (loc, e) ∧ Took (Text.encodeUtf8 text) e ∧
    SameBut loc t t'

inductive WroteAll (cwd : Location) : List (Path × String) → FileTree → FileTree → Prop
  | nil (t : FileTree) : WroteAll cwd [] t t
  | cons {p : Path} {text : String} {rest : List (Path × String)} {t mid t' : FileTree} :
      Wrote cwd p text t mid → WroteAll cwd rest mid t' →
      WroteAll cwd ((p, text) :: rest) t t'

namespace WroteAll

variable {cwd : Location} {writes : List (Path × String)} {t t' : FileTree}

theorem grown (h : WroteAll cwd writes t t') : Grown t t' := by
  induction h with
  | nil t => exact .refl t
  | cons hwrote _ ih => exact hwrote.grown.trans ih

/-- Where a path led when it was written to, there it still leads. -/
theorem leads (h : WroteAll cwd writes t t') :
    ∀ w ∈ writes, ∃ loc e, t'.stat cwd w.1 = .ok (loc, e) ∧ e ≠ .directory := by
  induction h with
  | nil => simp
  | cons hwrote hrest ih =>
    intro w hw
    rcases List.mem_cons.mp hw with rfl | hw
    · obtain ⟨loc, e, hstat, htook, -⟩ := hwrote.took
      obtain ⟨e', he', hstays⟩ := hrest.grown.kept loc e (find?_of_stat hstat)
      exact ⟨loc, e', stat_grown hrest.grown hstat he',
        hstays.not_directory htook.not_directory⟩
    · exact ih w hw

/-- What is at none of the places written to is what it was. -/
theorem unchanged (h : WroteAll cwd writes t t') {loc : Location} {e : Entry}
    (haway : ∀ w ∈ writes, ∀ e', t'.stat cwd w.1 ≠ .ok (loc, e'))
    (he : t.find? loc = some e) : t'.find? loc = some e := by
  induction h with
  | nil => exact he
  | cons hwrote hrest ih =>
    obtain ⟨place, found, hstat, -, hsame⟩ := hwrote.took
    have hne : loc ≠ place := by
      rintro rfl
      obtain ⟨e', he', -⟩ := hrest.grown.kept loc found (find?_of_stat hstat)
      exact haway _ (List.mem_cons_self ..) e' (stat_grown hrest.grown hstat he')
    exact ih (fun w hw => haway w (List.mem_cons_of_mem _ hw)) (hsame loc e hne he)

/-- If the paths lead to different files, each of these holds its text in the end. -/
theorem holds (h : WroteAll cwd writes t t')
    (hapart : (writes.map (·.1)).Pairwise (Apart t' cwd))
    (hfile : ∀ w ∈ writes, LeadsToFile t' cwd w.1) :
    ∀ w ∈ writes, Holds t' cwd w.1 w.2 := by
  induction h with
  | nil => simp
  | @cons p text rest t mid t' hwrote hrest ih =>
    rw [List.map_cons, List.pairwise_cons] at hapart
    intro w hw
    rcases List.mem_cons.mp hw with rfl | hw
    · obtain ⟨loc, e, hstat, htook, -⟩ := hwrote.took
      have hkept : t'.find? loc = some e := by
        refine hrest.unchanged ?_ (find?_of_stat hstat)
        intro w hw e'
        obtain ⟨e₂, he₂, -⟩ := hrest.grown.kept loc e (find?_of_stat hstat)
        exact hapart.1 w.1 (List.mem_map_of_mem hw) loc e₂ e'
          (stat_grown hrest.grown hstat he₂)
      have hstat' := stat_grown hrest.grown hstat hkept
      obtain ⟨loc', octets, x, hfile'⟩ := hfile _ (List.mem_cons_self ..)
      cases hstat'.symm.trans hfile'
      cases htook with
      | file => exact ⟨loc, x, hstat'⟩
      | lost hplain => exact absurd trivial hplain
    · exact ih hapart.2 (fun w hw => hfile w (List.mem_cons_of_mem _ hw)) w hw

end WroteAll

section Outcomes

variable {w : Workspace} {t t' : FileTree}

theorem makeDirectory_outcome {p : Path} {kind : FileFault → WorkspaceFault} {u : Unit}
    (h : outcome (w.makeDirectory p kind) t = (.ok u, t')) : Added t t' := by
  obtain ⟨tree, mid, hget, h⟩ := outcome_bind_eq_ok.mp h
  cases hget
  obtain ⟨_, after, hset, h⟩ := outcome_bind_eq_ok.mp h
  cases hset
  have hadded := added_makeDirectories t w.cwd p
  split at h
  · cases h
    exact hadded
  · cases h

theorem Wrote.after_added {cwd : Location} {p : Path} {text : String} {mid : FileTree}
    (hadded : Added t mid) (h : Wrote cwd p text mid t') : Wrote cwd p text t t' := by
  obtain ⟨loc, e, hstat, htook, hsame⟩ := h.took
  refine ⟨hadded.grown.trans h.grown, loc, e, hstat, htook, ?_⟩
  exact fun other old hne hold => hsame other old hne (hadded.unchanged other old hold)

theorem writeFile_outcome {p : Path} {text : String} {u : Unit}
    (h : outcome (w.writeFile p text) t = (.ok u, t')) : Wrote w.cwd p text t t' := by
  obtain ⟨_, mid, hmade, h⟩ := outcome_bind_eq_ok.mp h
  obtain ⟨tree, _, hget, h⟩ := outcome_bind_eq_ok.mp h
  cases hget
  split at h
  · rename_i written hwritten
    cases h
    obtain ⟨hgrown, htook⟩ := writeOctets_ok hwritten
    exact Wrote.after_added (makeDirectory_outcome hmade) ⟨hgrown, htook⟩
  · cases h

theorem save_outcome {language : String} {tail saved : Path} {text : String}
    (h : outcome (w.save language tail text) t = (.ok saved, t')) :
    saved = (w.languageDir language).join tail ∧ Wrote w.cwd saved text t t' := by
  obtain ⟨_, mid, hensure, h⟩ := outcome_bind_eq_ok.mp h
  obtain ⟨_, mid', hmade, hensure⟩ := outcome_bind_eq_ok.mp hensure
  cases hensure
  obtain ⟨_, after, hwrite, h⟩ := outcome_bind_eq_ok.mp h
  cases h
  exact ⟨rfl, (writeFile_outcome hwrite).after_added (makeDirectory_outcome hmade)⟩

def mirrorWrites (w : Workspace) (language : String) (fragments : List Fragment) :
    List (Path × String) :=
  fragments.filterMap fun f =>
    f.relativePath.map fun tail => ((w.languageDir language).join tail, f.text)

theorem saveMirrored_outcome {language : String} {fragments : List Fragment}
    {saved : List Path}
    (h : outcome (w.saveMirrored language fragments) t = (.ok saved, t')) :
    saved = (w.mirrorWrites language fragments).map (·.1) ∧
      WroteAll w.cwd (w.mirrorWrites language fragments) t t' := by
  induction fragments generalizing saved t with
  | nil =>
    cases h
    exact ⟨rfl, .nil _⟩
  | cons f rest ih =>
    cases hplace : f.relativePath with
    | none =>
      simp only [saveMirrored, hplace] at h
      simpa [mirrorWrites, hplace] using ih h
    | some tail =>
      simp only [saveMirrored, hplace] at h
      obtain ⟨first, mid, hsave, h⟩ := outcome_bind_eq_ok.mp h
      obtain ⟨others, after, hrest, h⟩ := outcome_bind_eq_ok.mp h
      cases h
      obtain ⟨rfl, hwrote⟩ := save_outcome hsave
      obtain ⟨rfl, hall⟩ := ih hrest
      have hwrites : w.mirrorWrites language (f :: rest) =
          ((w.languageDir language).join tail, f.text) :: w.mirrorWrites language rest := by
        simp [mirrorWrites, hplace]
      rw [hwrites]
      exact ⟨rfl, .cons hwrote hall⟩

def mainPath (w : Workspace) (s : Snippet) : Path :=
  (w.languageDir s.descriptor.name).join (.ofString s.descriptor.mainFile)

/-- All the writes for a snippet, whose main file has some text. -/
def writes (w : Workspace) (s : Snippet) (text : String) : List (Path × String) :=
  (w.mainPath s, text) :: w.mirrorWrites s.descriptor.name (s.ofProvenance .projectScope)

theorem materialize_outcome {s : Snippet} {m : Materials}
    (h : outcome (w.materialize s) t = (.ok m, t')) :
    ∃ text, s.render = .ok text ∧ m.main = w.mainPath s ∧
      m.sources = (w.writes s text).map (·.1) ∧ WroteAll w.cwd (w.writes s text) t t' := by
  obtain ⟨text, mid, hrender, h⟩ := outcome_bind_eq_ok.mp h
  obtain ⟨main, mid₁, hsave, h⟩ := outcome_bind_eq_ok.mp h
  obtain ⟨mirrored, mid₂, hmirrored, h⟩ := outcome_bind_eq_ok.mp h
  obtain ⟨tree, _, hget, h⟩ := outcome_bind_eq_ok.mp h
  cases hget
  obtain ⟨searchPaths, after, hsearch, h⟩ := outcome_bind_eq_ok.mp h
  rw [outcome_lift] at hrender hsearch
  cases h
  obtain ⟨htext, rfl⟩ := Prod.mk.inj hrender
  obtain ⟨-, rfl⟩ := Prod.mk.inj hsearch
  obtain ⟨rfl, hwrote⟩ := save_outcome hsave
  obtain ⟨rfl, hall⟩ := saveMirrored_outcome hmirrored
  exact ⟨text, htext, rfl, rfl, .cons hwrote hall⟩

end Outcomes

/-- What there is once the files of a snippet are written: the main file holds the rendered
text and each mirrored file its own, and no two of the files written are the same one. -/
structure Faithful (w : Workspace) (s : Snippet) (m : Materials) (t : FileTree) : Prop where
  main : ∃ text, s.render = .ok text ∧ Holds t w.cwd m.main text
  mirrored : ∀ f ∈ s.ofProvenance .projectScope, ∀ tail, f.relativePath = some tail →
    Holds t w.cwd ((w.languageDir s.descriptor.name).join tail) f.text
  once : m.sources.Nodup
  apart : m.sources.Pairwise (Apart t w.cwd)

section Faithful

variable {w : Workspace} {s : Snippet} {m : Materials} {t t' : FileTree}

theorem mem_mirrorWrites {language : String} {fragments : List Fragment}
    {write : Path × String} : write ∈ w.mirrorWrites language fragments ↔
      ∃ f ∈ fragments, ∃ tail, f.relativePath = some tail ∧
        write = ((w.languageDir language).join tail, f.text) := by
  simp [mirrorWrites, eq_comm]

theorem faithful_iff_apart (h : outcome (w.materialize s) t = (.ok m, t')) :
    Faithful w s m t' ↔
      m.sources.Pairwise (Apart t' w.cwd) ∧ ∀ p ∈ m.sources, LeadsToFile t' w.cwd p := by
  obtain ⟨text, hrender, hmain, hsources, hwrote⟩ := materialize_outcome h
  constructor
  · intro hfaithful
    refine ⟨hfaithful.apart, ?_⟩
    intro p hp
    rw [hsources] at hp
    obtain ⟨write, hwrite, rfl⟩ := List.mem_map.mp hp
    rcases List.mem_cons.mp hwrite with rfl | hwrite
    · obtain ⟨text', -, loc, x, hstat⟩ := hfaithful.main
      exact ⟨loc, _, x, hmain ▸ hstat⟩
    · obtain ⟨f, hf, tail, htail, rfl⟩ := mem_mirrorWrites.mp hwrite
      obtain ⟨loc, x, hstat⟩ := hfaithful.mirrored f hf tail htail
      exact ⟨loc, _, x, hstat⟩
  · rintro ⟨hapart, hfile⟩
    rw [hsources] at hapart
    have hholds := hwrote.holds hapart fun write hwrite =>
      hfile write.1 (hsources ▸ List.mem_map_of_mem hwrite)
    refine ⟨⟨text, hrender, ?_⟩, ?_, ?_, hsources ▸ hapart⟩
    · rw [hmain]
      exact hholds _ (List.mem_cons_self ..)
    · intro f hf tail htail
      exact hholds _ (List.mem_cons_of_mem _ (mem_mirrorWrites.mpr ⟨f, hf, tail, htail, rfl⟩))
    · rw [hsources]
      refine hapart.imp_of_mem ?_
      rintro p q hp - hpq rfl
      obtain ⟨write, hwrite, rfl⟩ := List.mem_map.mp hp
      obtain ⟨loc, e, hstat, -⟩ := hwrote.leads write hwrite
      exact hpq loc e e hstat hstat

/-- The places of the files of a snippet below the directory of its language. -/
def tails (s : Snippet) : List Path :=
  .ofString s.descriptor.mainFile :: (s.ofProvenance .projectScope).filterMap (·.relativePath)

theorem sources_eq_tails (h : outcome (w.materialize s) t = (.ok m, t')) :
    m.sources = (tails s).map (w.languageDir s.descriptor.name).join := by
  obtain ⟨text, -, -, hsources, -⟩ := materialize_outcome h
  rw [hsources]
  simp [writes, tails, mainPath, mirrorWrites, List.map_filterMap, Function.comp_def]

/-- A path that goes down from a directory, name by name. -/
structure Descends (p : Path) : Prop where
  here : p.anchor = .here
  names : p.parts ≠ []
  dots : ".." ∉ p.parts

/-- Where nothing but files and directories is, writing to different places below a directory
is writing to different files. -/
theorem faithful_of_tails (h : outcome (w.materialize s) t = (.ok m, t'))
    {top : Location}
    (htop : t'.stat w.cwd (w.languageDir s.descriptor.name) = .ok (top, .directory))
    (hplain : PlainBelow t top) (hdescends : ∀ tail ∈ tails s, Descends tail)
    (hnodup : (tails s).Nodup) : Faithful w s m t' := by
  have hsources := sources_eq_tails h
  obtain ⟨text, -, -, hwritten, hwrote⟩ := materialize_outcome h
  have hplain' : PlainBelow t' top := by
    intro names e he
    rcases hwrote.grown.plain _ e he with hp | he
    · exact hp
    · exact hplain names e he
  have hplace : ∀ tail ∈ tails s, ∀ loc e,
      t'.stat w.cwd ((w.languageDir s.descriptor.name).join tail) = .ok (loc, e) →
      loc = top ++ tail.parts := by
    intro tail htail loc e hstat
    have hd := hdescends tail htail
    exact stat_join_below hd.here hd.names hd.dots htop hplain' hstat
  refine (faithful_iff_apart h).mpr ⟨?_, ?_⟩
  · rw [hsources]
    refine List.pairwise_map.mpr (hnodup.imp_of_mem ?_)
    intro p q hp hq hne loc e e' hpstat hqstat
    have hparts : p.parts = q.parts :=
      List.append_cancel_left ((hplace p hp loc e hpstat).symm.trans (hplace q hq loc e' hqstat))
    have hanchor : p.anchor = q.anchor := (hdescends p hp).here.trans (hdescends q hq).here.symm
    obtain ⟨anchor, parts⟩ := p
    obtain ⟨anchor', parts'⟩ := q
    simp_all
  · intro p hp
    rw [hwritten] at hp
    obtain ⟨write, hwrite, rfl⟩ := List.mem_map.mp hp
    obtain ⟨loc, e, hstat, hdir⟩ := hwrote.leads write hwrite
    have hmem : write.1 ∈ (tails s).map (w.languageDir s.descriptor.name).join := by
      rw [← hsources, hwritten]
      exact List.mem_map_of_mem hwrite
    obtain ⟨tail, htail, heq⟩ := List.mem_map.mp hmem
    have hloc := hplace tail htail loc e (heq ▸ hstat)
    have hentry := hplain' tail.parts e (hloc ▸ find?_of_stat hstat)
    cases e with
    | directory => exact absurd rfl hdir
    | file octets x => exact ⟨loc, octets, x, hstat⟩
    | link target => exact absurd hentry id
    | device kind => exact absurd hentry id

end Faithful

/-- For a language that mirrors its project every file of a snippet is in its place in the
end just if the paths written to lead to different files. In a language directory with
nothing but files and directories in it they do unless the place of the main file is also
that of a mirrored file, which is then written over it. -/
theorem materialize_faithful_iff {site : Site} {limits : Selection.Limits}
    {request : RunRequest} {d : Descriptor} {level : Level} {r : Selection.Resolution}
    {w : Workspace} {t t' : FileTree} {m : Materials} (hmirror : d.projectLayout = .mirrored)
    (hresolve : Selection.resolve site limits request d level = .ok r)
    (h : outcome (w.materialize r.snippet) t = (.ok m, t')) :
    (Faithful w r.snippet m t' ↔
        m.sources.Pairwise (Apart t' w.cwd) ∧ ∀ p ∈ m.sources, LeadsToFile t' w.cwd p) ∧
      ∀ top, Descends (.ofString d.mainFile) → ¬ Project.Occurs site ".." →
        t'.stat w.cwd (w.languageDir d.name) = .ok (top, .directory) → PlainBelow t top →
        (Faithful w r.snippet m t' ↔
          ∀ f ∈ r.snippet.ofProvenance .projectScope,
            f.relativePath ≠ some (.ofString d.mainFile)) := by
  refine ⟨faithful_iff_apart h, ?_⟩
  intro top hmain hdots htop hplain
  obtain ⟨rfl, hplaced⟩ := Selection.resolve_placed hmirror hresolve
  constructor
  · intro hfaithful f hf hplace
    have honce := hfaithful.once
    rw [sources_eq_tails h, tails, List.map_cons, List.nodup_cons] at honce
    exact honce.1 (List.mem_map_of_mem (List.mem_filterMap.mpr ⟨f, hf, hplace⟩))
  · intro hfree
    refine faithful_of_tails h htop hplain ?_ ?_
    · intro tail htail
      rcases List.mem_cons.mp htail with rfl | htail
      · exact hmain
      · obtain ⟨f, hf, hplace⟩ := List.mem_filterMap.mp htail
        obtain ⟨names, hne, hnames, hplace'⟩ := hplaced.place f hf
        cases hplace.symm.trans hplace'
        exact ⟨rfl, hne, fun hmem => hdots (hnames _ hmem)⟩
    · rw [tails, List.nodup_cons]
      constructor
      · intro hmem
        obtain ⟨f, hf, hplace⟩ := List.mem_filterMap.mp hmem
        exact hfree f hf hplace
      · have hnodup := hplaced.once.filterMap (f := id)
          (fun a a' b hb hb' => hb.trans hb'.symm)
        simpa [List.filterMap_map] using hnodup

section MainInProject

private def classes : Descriptor where
  name := "j"
  level := .project
  extension := ".j"
  commands := []
  template := "\x7bbody\x7d"
  mainName := "M"
  definitionPatterns :=
    [.seq .start (.seq (.text "class ") (.name (.many ⟨false, [.word]⟩ true)))]
  projectLayout := .mirrored

/-- The class that is called stands in a file with the name of the main file. -/
private def classInMain : Site :=
  ⟨⟨[([".git"], .directory),
    (["A.j"], .file (Text.encodeUtf8 "B()\n") false),
    (["M.j"], .file (Text.encodeUtf8 "class B\n") false)]⟩, [], [], {}⟩

private def callOfClass : RunRequest where
  file := ⟨.root, ["A.j"]⟩
  first := 1
  last := 1
  scriptDir := ⟨.root, []⟩

private def snippetOfCall : Snippet where
  descriptor := classes
  level := .project
  fragments :=
    [⟨"class B\n", .projectScope, ⟨.root, ["M.j"]⟩, 1, some ⟨.here, ["M.j"]⟩⟩,
     ⟨"B()", .selection, ⟨.root, ["A.j"]⟩, 1, none⟩]
  projectRoot := some ⟨.root, []⟩
  misses := [⟨"class", .project⟩]

private def workspaceAtW : Workspace := ⟨⟨.root, ["w"]⟩, []⟩

private def materialsOfCall : Materials :=
  ⟨⟨.root, ["w", "j"]⟩, ⟨.root, ["w", "j", "M.j"]⟩,
    [⟨.root, ["w", "j", "M.j"]⟩, ⟨.root, ["w", "j", "M.j"]⟩], [], [⟨.root, []⟩]⟩

/-- The selected code is gone from the main file: the class is there in its stead. -/
private def treeAfterCall : FileTree :=
  ⟨[(["w"], .directory), (["w", "j"], .directory),
    (["w", "j", "M.j"], .file (Text.encodeUtf8 "class B\n") false)]⟩

theorem materialize_not_faithful_mainInProject :
    Selection.resolve classInMain {} callOfClass classes .project = .ok ⟨snippetOfCall, []⟩ ∧
      outcome (workspaceAtW.materialize snippetOfCall) ⟨[(["w"], .directory)]⟩ =
        (.ok materialsOfCall, treeAfterCall) ∧
      ¬ Faithful workspaceAtW snippetOfCall materialsOfCall treeAfterCall := by
  have hresolve : Selection.resolve classInMain {} callOfClass classes .project =
      .ok ⟨snippetOfCall, []⟩ := by cbv
  have hrun : outcome (workspaceAtW.materialize snippetOfCall) ⟨[(["w"], .directory)]⟩ =
      (.ok materialsOfCall, treeAfterCall) := by cbv
  have hmain : Descends (.ofString classes.mainFile) := by
    have hpath : Path.ofString classes.mainFile = ⟨.here, ["M.j"]⟩ := by cbv
    rw [hpath]
    exact ⟨rfl, by simp, by decide⟩
  have hdots : ¬ Project.Occurs classInMain ".." := by
    unfold Project.Occurs
    decide
  have htop : treeAfterCall.stat [] (workspaceAtW.languageDir classes.name) =
      .ok (["w", "j"], .directory) := by cbv
  have hplain : PlainBelow ⟨[(["w"], .directory)]⟩ ["w", "j"] := by
    intro names e he
    simp [find?, List.lookup_cons] at he
  have hiff := (materialize_faithful_iff rfl hresolve hrun).2 _ hmain hdots htop hplain
  refine ⟨hresolve, hrun, fun hfaithful => ?_⟩
  exact hiff.mp hfaithful _ (List.mem_cons_self ..) (by cbv)

end MainInProject

end SnippetRunner.Workspace
