import SnippetRunner.Proofs.Rounds
import SnippetRunner.Proofs.Selection.Accounting

/-!
The end of a chase. The names of a chase wait in a list that may grow with every round, also by
names that definitions refer to in circles, within the file, from file to file of the project, or
back into the current file. Still each name is looked at once and each definition is chosen once, so
the chase is over after some number of rounds, whatever the file, the project and the wanted names.
-/
namespace SnippetRunner.Selection

open Source

/-- Some items were added at the end, each of them new and none of them twice. -/
def Adds {α : Type} (old new : List α) : Prop :=
  ∃ added, new = old ++ added ∧ added.Nodup ∧ ∀ a ∈ added, a ∉ old

section Adding

variable {α : Type} {a : α} {old mid new : List α}

theorem Adds.refl (old : List α) : Adds old old :=
  ⟨[], by simp, List.nodup_nil, by simp⟩

theorem Adds.single (h : a ∉ old) : Adds old (old ++ [a]) :=
  ⟨[a], rfl, List.nodup_singleton a, by simpa using h⟩

theorem Adds.trans (h : Adds old mid) (h' : Adds mid new) : Adds old new := by
  obtain ⟨first, rfl, honce, hnew⟩ := h
  obtain ⟨second, rfl, honce', hnew'⟩ := h'
  refine ⟨first ++ second, List.append_assoc .., ?_, ?_⟩
  · rw [List.nodup_append]
    refine ⟨honce, honce', ?_⟩
    rintro a ha b hb rfl
    exact hnew' a hb (List.mem_append_right old ha)
  · intro a ha
    rcases List.mem_append.mp ha with ha | ha
    · exact hnew a ha
    · exact fun hold => hnew' a ha (List.mem_append_left first hold)

end Adding

namespace Chase

variable {σ : Type} {knows : String → Bool} {known : List String} {follow : σ → String → Lead σ}

/-- A round of a chase: the first pending name is dropped if it is settled, and followed or missed
otherwise; `knows` looks it up. The chase is over when no name is pending. -/
def round (knows : String → Bool) (follow : σ → String → Lead σ) :
    Chase σ × List String → Option (Round (Chase σ × List String) (Chase σ))
  | (c, []) => some (.over c)
  | (c, name :: rest) =>
    if name ∈ c.done then some (.on (c, rest))
    else if knows name then
      some (.on (c.followed follow name, rest ++ c.fresh follow name))
    else some (.on (c.missed name, rest))

/-- A chase that can know finitely many names is over after some number of rounds. -/
theorem run_over (hknows : ∀ n, knows n = true ↔ n ∈ known) (c : Chase σ)
    (pending : List String) :
    ∃ n, OverAfter (round knows follow) n (c, pending) (run known follow c pending) := by
  -- a round is one step of `run`, which settles a known name or shortens the list of pending ones
  fun_induction run known follow c pending with
  | case1 c => exact ⟨0, .now rfl⟩
  | case2 c name rest hdone ih =>
    obtain ⟨n, hover⟩ := ih
    exact ⟨n + 1, .later (by rw [round, if_pos hdone]) hover⟩
  | case3 c name rest hdone hknown lead done fresh ih =>
    obtain ⟨n, hover⟩ := ih
    refine ⟨n + 1, .later ?_ hover⟩
    rw [round, if_neg hdone, if_pos ((hknows name).mpr hknown)]
    rfl
  | case4 c name rest hdone hunknown ih =>
    obtain ⟨n, hover⟩ := ih
    refine ⟨n + 1, .later ?_ hover⟩
    rw [round, if_neg hdone, if_neg (mt (hknows name).mp hunknown)]
    rfl

/-- No name is looked at twice, for a name that was looked at is settled. -/
theorem visited_once (known : List String) (follow : σ → String → Lead σ) (state : σ)
    (pending : List String) : (run known follow (.start state) pending).visited.Nodup := by
  refine (run_invariant (fun c _ => c.visited.Nodup ∧ ∀ n ∈ c.visited, n ∈ c.done)
    ?_ ?_ ?_ _ _ ?_).1
  · exact fun c name rest _ h => h
  · rintro c name rest hnew _ ⟨honce, hdone⟩
    refine ⟨List.nodup_cons.mpr ⟨fun hmem => hnew (hdone name hmem), honce⟩, ?_⟩
    intro n hn
    apply List.mem_append_right
    exact List.mem_cons.mpr ((List.mem_cons.mp hn).imp_right (hdone n))
  · rintro c name rest hnew _ ⟨honce, hdone⟩
    refine ⟨List.nodup_cons.mpr ⟨fun hmem => hnew (hdone name hmem), honce⟩, ?_⟩
    intro n hn
    exact List.mem_cons.mpr ((List.mem_cons.mp hn).imp_right (hdone n))
  · exact ⟨List.nodup_nil, by simp [start]⟩

end Chase

namespace Surrounding

variable {s : Surrounding} {chosen : List Definition}

def knows (s : Surrounding) (name : String) : Bool :=
  !(s.candidatesOf name).isEmpty

def round (s : Surrounding) : Chase (List Definition) × List String →
    Option (Round (Chase (List Definition) × List String) (Chase (List Definition))) :=
  Chase.round s.knows s.follow

theorem knows_iff (s : Surrounding) (n : String) : s.knows n = true ↔ n ∈ s.names := by
  rw [mem_names, knows, Bool.not_eq_true', List.isEmpty_eq_false_iff_exists_mem]
  simp only [mem_candidatesOf, Defines]

theorem follow_adds (s : Surrounding) (chosen : List Definition) (name : String) :
    Adds chosen (s.follow chosen name).state := by
  unfold follow
  split
  · rename_i d hd
    by_cases hmem : d ∈ chosen
    · simpa [hmem] using Adds.refl chosen
    · simpa [hmem] using Adds.single hmem
  · exact .refl chosen

/-- Closing within the file chooses no definition twice, nor one that was chosen before. -/
theorem close_adds (s : Surrounding) (chosen : List Definition) (wanted : List String) :
    Adds chosen (s.close chosen wanted).1 := by
  refine Chase.run_invariant (fun c _ => Adds chosen c.state) ?_ ?_ ?_ _ _ (.refl chosen)
  · exact fun c name rest _ h => h
  · exact fun c name rest _ _ h => h.trans (s.follow_adds c.state name)
  · exact fun c name rest _ _ h => h

end Surrounding

namespace ProjectScope

variable {s : ProjectScope} {g g' : Gathered} {hits : List Hit} {name : String}

def knows (s : ProjectScope) (name : String) : Bool :=
  s.isLocal name || (s.find? name).isSome

def round (s : ProjectScope) : Chase Gathered × List String →
    Option (Round (Chase Gathered × List String) (Chase Gathered)) :=
  Chase.round s.knows s.follow

theorem knows_iff (s : ProjectScope) (n : String) : s.knows n = true ↔ n ∈ s.names := by
  rw [mem_names_iff, knows, Bool.or_eq_true, isLocal_iff, Option.isSome_iff_exists]
  simp only [Prod.exists, find?_eq_some_iff]

def fragmentOf (s : ProjectScope) (h : Hit) : Fragment :=
  match s.descriptor.projectLayout with
  | .inline => h.fragment
  | .mirrored => s.wholeFile h.file.source

/-- What was gathered on the way through a project: definitions of the file, each of them once, and
for each hit its fragment. The hits are found in the project for different names, and where whole
files are kept none of them is kept twice. -/
structure GathersOnce (s : ProjectScope) (g g' : Gathered) (hits : List Hit) : Prop where
  own : Adds g.fileDefinitions g'.fileDefinitions
  fragments : g'.fragments = g.fragments ++ hits.map s.fragmentOf
  found : ∀ h ∈ hits, FoundInProject s.surrounding s.files h.name h.file h.definition
  names : (hits.map (·.name)).Nodup
  files : s.descriptor.projectLayout = .mirrored →
    Adds (g.fragments.map (·.origin)) (g'.fragments.map (·.origin))

/-- Hits for different names are different definitions. -/
theorem GathersOnce.definitions (h : s.GathersOnce g g' hits) :
    (hits.map (·.definition)).Nodup := by
  have hnames : (hits.map (·.definition)).map (·.name) = hits.map (·.name) := by
    rw [List.map_map]
    refine List.map_congr_left fun hit hmem => ?_
    obtain ⟨-, -, -, -, -, -, hfind⟩ := h.found hit hmem
    simpa using List.find?_some hfind
  exact .of_map (·.name) (hnames ▸ h.names)

theorem GathersOnce.refl (s : ProjectScope) (g : Gathered) : s.GathersOnce g g [] where
  own := .refl _
  fragments := by simp
  found := by simp
  names := List.nodup_nil
  files := fun _ => .refl _

/-- Going back to the file adds definitions of it alone. -/
theorem GathersOnce.choose (h : s.GathersOnce g g' hits) {chosen : List Definition}
    (hchosen : Adds g'.fileDefinitions chosen) :
    s.GathersOnce g { g' with fileDefinitions := chosen } hits where
  own := h.own.trans hchosen
  fragments := h.fragments
  found := h.found
  names := h.names
  files := h.files

/-- One more hit, for a name without one, adds its fragment. -/
theorem GathersOnce.hit {g'' : Gathered} {hit : Hit} (h : s.GathersOnce g g' hits)
    (hfound : FoundInProject s.surrounding s.files hit.name hit.file hit.definition)
    (hnew : hit.name ∉ hits.map (·.name)) (hown : g''.fileDefinitions = g'.fileDefinitions)
    (hfragments : g''.fragments = g'.fragments ++ [s.fragmentOf hit])
    (hfile : s.descriptor.projectLayout = .mirrored →
      (s.fragmentOf hit).origin ∉ g'.fragments.map (·.origin)) :
    s.GathersOnce g g'' (hits ++ [hit]) where
  own := hown ▸ h.own
  fragments := by rw [hfragments, h.fragments, List.map_append, List.append_assoc]; rfl
  found := by
    intro k hk
    rcases List.mem_append.mp hk with hk | hk
    · exact h.found k hk
    · exact List.mem_singleton.mp hk ▸ hfound
  names := by
    rw [List.map_append, List.map_singleton, List.nodup_append]
    refine ⟨h.names, List.nodup_singleton _, ?_⟩
    rintro a ha b hb rfl
    exact hnew (List.mem_singleton.mp hb ▸ ha)
  files := by
    intro hmirror
    rw [hfragments, List.map_append, List.map_singleton]
    exact (h.files hmirror).trans (.single (hfile hmirror))

/-- Following a name that is found for the first time is one more hit, unless its file is kept
already. -/
theorem GathersOnce.follow_found {file : ProjectFile} {d : Definition}
    (hfound : FoundInProject s.surrounding s.files name file d)
    (hnew : name ∉ hits.map (·.name)) (h : s.GathersOnce g g' hits) :
    s.GathersOnce g (s.follow g' name).state hits ∨
      s.GathersOnce g (s.follow g' name).state (hits ++ [⟨name, file, d⟩]) := by
  cases hlayout : s.descriptor.projectLayout with
  | inline =>
    right
    rw [ProjectScope.follow_found hlayout hfound]
    refine h.hit hfound hnew rfl ?_ (by simp [hlayout])
    simp [fragmentOf, hlayout]
  | mirrored =>
    rw [follow_mirrored hlayout hfound]
    by_cases hkept : (g'.fragments.any fun f => f.origin == file.source.path) = true
    · left
      rw [if_pos hkept]
      exact h
    · right
      rw [if_neg hkept]
      refine h.hit hfound hnew rfl (by simp [fragmentOf, hlayout]) fun _ => ?_
      simpa [fragmentOf, hlayout, wholeFile] using hkept

/-- What a chase through the project has gathered so far. The names of its hits are settled, so none
of them is found again. -/
def GathersSettled (s : ProjectScope) (g : Gathered) (c : Chase Gathered) : Prop :=
  ∃ hits, s.GathersOnce g c.state hits ∧ ∀ n ∈ hits.map (·.name), n ∈ c.done

theorem GathersSettled.followed {c : Chase Gathered} (h : s.GathersSettled g c)
    (hnew : name ∉ c.done) (hknown : name ∈ s.names) :
    s.GathersSettled g (c.followed s.follow name) := by
  obtain ⟨hits, hgathers, hdone⟩ := h
  have hsettled : ∀ n, n ∈ hits.map (·.name) ∨ n = name →
      n ∈ (c.followed s.follow name).done := by
    intro n hn
    apply List.mem_append_right
    exact List.mem_cons.mpr ((hn.imp_left (hdone n)).symm)
  by_cases hlocal : s.surrounding.Defines name
  · refine ⟨hits, ?_, fun n hn => hsettled n (Or.inl hn)⟩
    rw [Chase.followed, follow_local hlocal]
    exact hgathers.choose (s.surrounding.close_adds ..)
  · obtain ⟨file, d, hfirst⟩ := (mem_names_iff.mp hknown).resolve_left hlocal
    rcases hgathers.follow_found ⟨hlocal, hfirst⟩ (fun hmem => hnew (hdone name hmem)) with
      hkept | hhit
    · exact ⟨hits, hkept, fun n hn => hsettled n (Or.inl hn)⟩
    · refine ⟨_, hhit, fun n hn => hsettled n ?_⟩
      simpa only [List.map_append, List.map_singleton, List.mem_append, List.mem_singleton]
        using hn

/-- What a chase through the project has gathered when it is over. -/
theorem run_gathers (s : ProjectScope) (g : Gathered) (pending : List String) :
    s.GathersSettled g (Chase.run s.names s.follow (.start g) pending) := by
  apply Chase.run_invariant fun c _ => s.GathersSettled g c
  · exact fun c name rest _ h => h
  · exact fun c name rest hnew hknown h => h.followed hnew hknown
  · rintro c name rest hnew hunknown ⟨hits, hgathers, hdone⟩
    exact ⟨hits, hgathers, fun n hn => List.mem_cons_of_mem _ (hdone n hn)⟩
  · exact ⟨[], .refl s g, by simp⟩

end ProjectScope

/-- A chase within the file and a chase through the project end for every file, every project and
every set of wanted names. Each name is looked at once. Of the file no definition is chosen twice,
nor one that was chosen before; of the project each hit adds its fragment once, the hits are
different definitions, and where whole files are kept they are different files, none of them kept
before. -/
theorem chases_end (around : Surrounding) (chosen : List Definition) (scope : ProjectScope)
    (g : Gathered) (wanted : List String) :
    (∃ n c, OverAfter around.round n (.start chosen, sortNames wanted) c ∧
      around.close chosen wanted = (c.state, c.missing) ∧ c.visited.Nodup ∧
      Adds chosen c.state) ∧
    ∃ n c hits, OverAfter scope.round n (.start g, sortNames wanted) c ∧
      (scope.close g wanted).1 =
        { c.state with fragments := c.state.fragments.mergeSort scope.fragmentLe } ∧
      (scope.close g wanted).2.1 = c.missing ∧ c.visited.Nodup ∧
      scope.GathersOnce g c.state hits ∧ (hits.map (·.definition)).Nodup := by
  constructor
  · obtain ⟨n, hover⟩ := Chase.run_over around.knows_iff (.start chosen) (sortNames wanted)
    exact ⟨n, _, hover, rfl, Chase.visited_once .., around.close_adds chosen wanted⟩
  · obtain ⟨n, hover⟩ := Chase.run_over scope.knows_iff (.start g) (sortNames wanted)
    obtain ⟨hits, hgathers, -⟩ := scope.run_gathers g (sortNames wanted)
    exact ⟨n, _, hits, hover, rfl, rfl, Chase.visited_once .., hgathers, hgathers.definitions⟩

private def circle : Surrounding :=
  ⟨.indent, [⟨"f", 1, 1, "f = lambda: g()"⟩, ⟨"g", 2, 2, "g = lambda: f()"⟩], 3, 3⟩

/-- Two definitions that refer to each other are both chosen, once. -/
example : circle.close [] ["f"] = (circle.definitions, ["lambda"]) := by cbv

end SnippetRunner.Selection
