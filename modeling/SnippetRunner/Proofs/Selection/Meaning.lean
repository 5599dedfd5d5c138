import SnippetRunner.Proofs.Selection.Chase
import SnippetRunner.Selection.InProject

/-!
What names stand for. The current file comes first, then the first file of the project
that can be read and defines the name. The names that a selection needs are the least set
that holds those it uses and is closed under the references of what its members stand for.
-/
namespace SnippetRunner.Selection

open Source

namespace Surrounding

def Defines (s : Surrounding) (n : String) : Prop :=
  ∃ d ∈ s.definitions, d.name = n ∧ d.overlaps s.first s.last = false

def Denotes (s : Surrounding) (n : String) (d : Definition) : Prop :=
  pick? (candidates s.definitions s.first s.last n) s.first = some d

end Surrounding

def FirstDefinition (files : List Loaded) (n : String) (file : ProjectFile)
    (d : Definition) : Prop :=
  ∃ before path after, files = before ++ (path, .ok file) :: after ∧
    (∀ f ∈ before, ∀ earlier, f.2 = .ok earlier → ∀ e ∈ earlier.definitions, e.name ≠ n) ∧
    file.definitions.find? (fun e => e.name == n) = some d

/-- Only a name that the current file does not define is looked for in the project. -/
def FoundInProject (around : Surrounding) (files : List Loaded) (n : String)
    (file : ProjectFile) (d : Definition) : Prop :=
  ¬ around.Defines n ∧ FirstDefinition files n file d

def Unresolved (around : Surrounding) (files : List Loaded) (n : String) : Prop :=
  (∀ d, ¬ around.Denotes n d) ∧ ∀ file d, ¬ FoundInProject around files n file d

/-- The least set of names that holds the wanted ones and, with each name, those that the
text it stands for refers to besides the name itself. -/
inductive Needed (around : Surrounding) (files : List Loaded) (wanted : String → Prop) :
    String → Prop
  | wanted {n : String} : wanted n → Needed around files wanted n
  | inFile {n m : String} {d : Definition} : Needed around files wanted n →
      around.Denotes n d → m ∈ identifiers around.style d.text → m ≠ n →
      Needed around files wanted m
  | inProject {n m : String} {file : ProjectFile} {d : Definition} :
      Needed around files wanted n → FoundInProject around files n file d →
      m ∈ identifiers around.style d.text → m ≠ n → Needed around files wanted m

/-- A name with the definition that the project has for it. -/
structure Hit where
  name : String
  file : ProjectFile
  definition : Definition

namespace Hit

def fragment (h : Hit) : Fragment :=
  ⟨h.definition.text, .projectScope, h.file.source.path, h.definition.start, none⟩

/-- The imports of the file in which the name was found. -/
def imports (h : Hit) : List Fragment :=
  ProjectScope.importFragments h.file.source 0 (-1)

end Hit

theorem not_firstDefinition_nil {n : String} {file : ProjectFile} {d : Definition} :
    ¬ FirstDefinition [] n file d := by
  rintro ⟨before, path, after, hfiles, -⟩
  simp at hfiles

theorem firstDefinition_error {path : Path} {e : Failure} {rest : List Loaded} {n : String}
    {file : ProjectFile} {d : Definition} :
    FirstDefinition ((path, .error e) :: rest) n file d ↔ FirstDefinition rest n file d := by
  constructor
  · rintro ⟨before, p, after, hfiles, hbefore, hd⟩
    cases before with
    | nil => simp at hfiles
    | cons f before =>
      obtain ⟨-, rfl⟩ := List.cons.inj hfiles
      exact ⟨before, p, after, rfl, fun g hg => hbefore g (List.mem_cons_of_mem _ hg), hd⟩
  · rintro ⟨before, p, after, rfl, hbefore, hd⟩
    refine ⟨(path, .error e) :: before, p, after, rfl, ?_, hd⟩
    intro f hf earlier hok
    rcases List.mem_cons.mp hf with rfl | hf
    · simp at hok
    · exact hbefore f hf earlier hok

theorem firstDefinition_ok {path : Path} {g : ProjectFile} {rest : List Loaded} {n : String}
    {file : ProjectFile} {d : Definition} :
    FirstDefinition ((path, .ok g) :: rest) n file d ↔
      (g = file ∧ g.definitions.find? (fun e => e.name == n) = some d) ∨
        ((∀ e ∈ g.definitions, e.name ≠ n) ∧ FirstDefinition rest n file d) := by
  constructor
  · rintro ⟨before, p, after, hfiles, hbefore, hd⟩
    cases before with
    | nil =>
      simp only [List.nil_append, List.cons.injEq, Prod.mk.injEq, Except.ok.injEq] at hfiles
      obtain ⟨⟨-, rfl⟩, -⟩ := hfiles
      exact Or.inl ⟨rfl, hd⟩
    | cons f before =>
      obtain ⟨rfl, rfl⟩ := List.cons.inj hfiles
      refine Or.inr ⟨hbefore _ (List.mem_cons_self ..) g rfl, before, p, after, rfl, ?_, hd⟩
      exact fun f hf => hbefore f (List.mem_cons_of_mem _ hf)
  · rintro (⟨rfl, hd⟩ | ⟨hg, before, p, after, rfl, hbefore, hd⟩)
    · exact ⟨[], path, rest, rfl, by simp, hd⟩
    · refine ⟨(path, .ok g) :: before, p, after, rfl, ?_, hd⟩
      intro f hf earlier hok
      rcases List.mem_cons.mp hf with rfl | hf
      · cases hok
        exact hg
      · exact hbefore f hf earlier hok

theorem FirstDefinition.unique {files : List Loaded} {n : String} {file file' : ProjectFile}
    {d d' : Definition} (h : FirstDefinition files n file d)
    (h' : FirstDefinition files n file' d') : file = file' ∧ d = d' := by
  induction files with
  | nil => exact absurd h not_firstDefinition_nil
  | cons f rest ih =>
    obtain ⟨path, content⟩ := f
    cases content with
    | error e => exact ih (firstDefinition_error.mp h) (firstDefinition_error.mp h')
    | ok g =>
      have hnone : ∀ {e : Definition}, g.definitions.find? (fun e => e.name == n) = some e →
          ¬ ∀ e ∈ g.definitions, e.name ≠ n := by
        intro e he hall
        exact hall e (List.mem_of_find?_eq_some he) (by simpa using List.find?_some he)
      rcases firstDefinition_ok.mp h with ⟨rfl, hd⟩ | ⟨hg, hrest⟩
      · rcases firstDefinition_ok.mp h' with ⟨rfl, hd'⟩ | ⟨hg, -⟩
        · exact ⟨rfl, Option.some.inj (hd.symm.trans hd')⟩
        · exact absurd hg (hnone hd)
      · rcases firstDefinition_ok.mp h' with ⟨rfl, hd'⟩ | ⟨-, hrest'⟩
        · exact absurd hg (hnone hd')
        · exact ih hrest hrest'

theorem FoundInProject.unique {around : Surrounding} {files : List Loaded} {n : String}
    {file file' : ProjectFile} {d d' : Definition} (h : FoundInProject around files n file d)
    (h' : FoundInProject around files n file' d') : file = file' ∧ d = d' :=
  h.2.unique h'.2

theorem mem_references (style : BlockStyle) (name text m : String) :
    m ∈ Surrounding.references style name text ↔ m ∈ identifiers style text ∧ m ≠ name := by
  simp [Surrounding.references]

section Pick

variable {cs : List Definition} {before : Int} {d : Definition}

theorem mem_of_pick? (h : pick? cs before = some d) : d ∈ cs := by
  unfold pick? at h
  split at h
  · rename_i e he
    have hmem : e ∈ cs.filter fun c => (c.stop : Int) < before := List.mem_of_getLast? he
    cases h
    exact (List.mem_filter.mp hmem).1
  · exact List.mem_of_head? h

theorem exists_pick? (h : d ∈ cs) : ∃ e, pick? cs before = some e := by
  unfold pick?
  split
  · exact ⟨_, rfl⟩
  · cases cs with
    | nil => simp at h
    | cons c rest => exact ⟨c, rfl⟩

end Pick

namespace Surrounding

variable {s : Surrounding} {n : String} {d : Definition}

theorem mem_candidatesOf : d ∈ s.candidatesOf n ↔
    d ∈ s.definitions ∧ d.name = n ∧ d.overlaps s.first s.last = false := by
  simp [candidatesOf, candidates]

theorem mem_names : n ∈ s.names ↔ s.Defines n := by
  simp only [names, Defines, List.mem_map, List.mem_filter, Bool.not_eq_true']
  constructor
  · rintro ⟨d, ⟨hd, ho⟩, hn⟩
    exact ⟨d, hd, hn, ho⟩
  · rintro ⟨d, hd, hn, ho⟩
    exact ⟨d, ⟨hd, ho⟩, hn⟩

theorem Denotes.name_eq (h : s.Denotes n d) : d.name = n :=
  (mem_candidatesOf.mp (mem_of_pick? h)).2.1

theorem Denotes.defines (h : s.Denotes n d) : s.Defines n :=
  ⟨d, mem_candidatesOf.mp (mem_of_pick? h)⟩

theorem Denotes.unique {e : Definition} (h : s.Denotes n d) (h' : s.Denotes n e) : d = e :=
  Option.some.inj (h.symm.trans h')

theorem Defines.denotes (h : s.Defines n) : ∃ d, s.Denotes n d := by
  obtain ⟨d, hd⟩ := h
  exact exists_pick? (mem_candidatesOf.mpr hd)

theorem follow_of_denotes (chosen : List Definition) (h : s.Denotes n d) :
    s.follow chosen n = if d ∈ chosen then ⟨chosen, [], []⟩
      else ⟨chosen ++ [d], [], references s.style n d.text⟩ := by
  have hp : pick? (s.candidatesOf n) s.first = some d := h
  simp [follow, hp]

end Surrounding

namespace ProjectScope

theorem find?_eq_some_iff (s : ProjectScope) (n : String) (file : ProjectFile)
    (d : Definition) : s.find? n = some (file, d) ↔ FirstDefinition s.files n file d := by
  obtain ⟨descriptor, root, around, files⟩ := s
  induction files with
  | nil =>
    constructor
    · intro h
      simp [find?, readable] at h
    · intro h
      exact absurd h not_firstDefinition_nil
  | cons f rest ih =>
    obtain ⟨path, content⟩ := f
    cases content with
    | error e => simpa [find?, readable, firstDefinition_error] using ih
    | ok g =>
      rw [firstDefinition_ok, ← ih]
      cases hg : g.definitions.find? (fun e => e.name == n) with
      | some e =>
        have hsome : ∃ e ∈ g.definitions, e.name = n :=
          ⟨e, List.mem_of_find?_eq_some hg, by simpa using List.find?_some hg⟩
        have hfirst : ¬ ∀ e ∈ g.definitions, e.name ≠ n := by
          intro hall
          obtain ⟨e, he, hn⟩ := hsome
          exact hall e he hn
        simp [find?, readable, hg, hfirst]
      | none =>
        have hnone : ∀ e ∈ g.definitions, e.name ≠ n := by simpa using hg
        rw [and_iff_right hnone]
        simp [find?, readable, hg]

theorem isLocal_iff (s : ProjectScope) (n : String) :
    s.isLocal n = true ↔ s.surrounding.Defines n := by
  simp [isLocal, Surrounding.mem_names]

end ProjectScope

end SnippetRunner.Selection
