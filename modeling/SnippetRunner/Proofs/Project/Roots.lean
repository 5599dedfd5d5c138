import SnippetRunner.Proofs.Project.Obstacles

/-!
Which directory is the root of a project. The search goes from the real directory where it starts
to its parents, one step after the other, and the root is the first of them that holds a marker:
nothing is found only if none of those within the bound holds one.
-/
namespace SnippetRunner.Project

variable {s : Site} {markers : List String} {directory root start : Path} {maxDepth : Int}

def above (directory : Path) (steps : Nat) : Path :=
  Path.parent^[steps] directory

def Marked (s : Site) (markers : List String) (directory : Path) : Prop :=
  ∃ marker ∈ markers, s.pathExists (directory.child marker) = .ok true

def Unmarked (s : Site) (markers : List String) (directory : Path) : Prop :=
  ∀ marker ∈ markers, s.pathExists (directory.child marker) = .ok false

/-- Of a directory and those above it, so many steps at most, one is the nearest that holds a
marker. -/
def NearestMarked (s : Site) (markers : List String) (maxDepth : Int) (directory root : Path) :
    Prop :=
  ∃ steps : Nat, (steps : Int) ≤ maxDepth ∧ root = above directory steps ∧
    Marked s markers root ∧ ∀ fewer < steps, Unmarked s markers (above directory fewer)

theorem above_eq (directory : Path) (steps : Nat) :
    above directory steps =
      ⟨directory.anchor, directory.parts.take (directory.parts.length - steps)⟩ := by
  unfold above
  induction steps with
  | zero => simp
  | succ steps ih =>
    rw [Function.iterate_succ_apply', ih, Path.parent, List.dropLast_eq_take, List.take_take,
      List.length_take]
    congr 2
    omega

/-- From the top there is no way further up. -/
theorem above_top (directory : Path) {steps : Nat} (h : directory.parts.length ≤ steps) :
    above directory steps = ⟨directory.anchor, []⟩ := by
  rw [above_eq, Nat.sub_eq_zero_of_le h, List.take_zero]

theorem ancestors_eq (directory : Path) :
    ancestors directory = (List.range (directory.parts.length + 1)).map (above directory) := by
  rw [ancestors]
  exact List.map_congr_left fun steps _ => (above_eq directory steps).symm

theorem holdsMarker_eq_true (h : holdsMarker s directory markers = .ok true) :
    Marked s markers directory := by
  induction markers with
  | nil => cases h
  | cons marker rest ih =>
    obtain ⟨there, hthere, h⟩ := Success.bind_eq_ok.mp h
    cases there with
    | true => exact ⟨marker, List.mem_cons_self .., hthere⟩
    | false =>
      obtain ⟨other, hother, hmarked⟩ := ih h
      exact ⟨other, List.mem_cons_of_mem _ hother, hmarked⟩

theorem unmarked_iff :
    Unmarked s markers directory ↔ holdsMarker s directory markers = .ok false := by
  rw [holdsMarker_eq_false, List.forall_mem_map]
  rfl

/-- A marker is found behind places where nothing is. -/
theorem holdsMarker_of_free {before after : List String} {marker : String}
    (hbefore : Unmarked s before directory)
    (hmarker : s.pathExists (directory.child marker) = .ok true) :
    holdsMarker s directory (before ++ marker :: after) = .ok true := by
  induction before with
  | nil => exact Success.bind_eq_ok.mpr ⟨true, hmarker, rfl⟩
  | cons earlier before ih =>
    obtain ⟨hearlier, hbefore⟩ := List.forall_mem_cons.mp hbefore
    exact Success.bind_eq_ok.mpr ⟨false, hearlier, ih hbefore⟩

/-- Of some directories in turn the first one that holds a marker is found. -/
theorem firstMarked_ok {directories : List Path} {found : Option Path}
    (h : firstMarked s markers directories = .ok found) :
    (found = none ∧ ∀ d ∈ directories, Unmarked s markers d) ∨
      ∃ before root after, found = some root ∧ directories = before ++ root :: after ∧
        Marked s markers root ∧ ∀ d ∈ before, Unmarked s markers d := by
  induction directories with
  | nil =>
    cases h
    exact Or.inl ⟨rfl, by simp⟩
  | cons directory rest ih =>
    obtain ⟨holds, hholds, h⟩ := Success.bind_eq_ok.mp h
    cases holds with
    | true =>
      cases h
      exact Or.inr ⟨[], directory, rest, rfl, rfl, holdsMarker_eq_true hholds, by simp⟩
    | false =>
      have hunmarked := unmarked_iff.mpr hholds
      rcases ih h with ⟨rfl, hrest⟩ | ⟨before, root, after, rfl, rfl, hroot, hbefore⟩
      · exact Or.inl ⟨rfl, List.forall_mem_cons.mpr ⟨hunmarked, hrest⟩⟩
      · exact Or.inr ⟨directory :: before, root, after, rfl, rfl, hroot,
          List.forall_mem_cons.mpr ⟨hunmarked, hbefore⟩⟩

theorem findRoot_ok {found : Option Path}
    (h : findRoot s start markers maxDepth = .ok found) :
    ∃ directory, s.resolve start = .ok directory ∧
      firstMarked s markers ((ancestors directory).take (maxDepth + 1).toNat) = .ok found :=
  Success.bind_eq_ok.mp h

/-- A directory that holds a marker is its own root. -/
theorem findRoot_here (hstart : s.resolve start = .ok directory)
    (hmarked : holdsMarker s directory markers = .ok true) (hdepth : 0 ≤ maxDepth) :
    findRoot s start markers maxDepth = .ok (some directory) := by
  obtain ⟨further, hfurther⟩ : ∃ further, (maxDepth + 1).toNat = further + 1 :=
    ⟨maxDepth.toNat, by omega⟩
  have hself : above directory 0 = directory := rfl
  refine Success.bind_eq_ok.mpr ⟨directory, hstart, ?_⟩
  rw [hfurther, ancestors_eq, List.range_succ_eq_map, List.map_cons, List.take_succ_cons, hself]
  exact Success.bind_eq_ok.mpr ⟨true, hmarked, rfl⟩

/-- A root that is found is the nearest directory that holds a marker. -/
theorem findRoot_nearest (h : findRoot s start markers maxDepth = .ok (some root)) :
    ∃ directory, s.resolve start = .ok directory ∧
      NearestMarked s markers maxDepth directory root := by
  obtain ⟨directory, hdirectory, hfirst⟩ := findRoot_ok h
  refine ⟨directory, hdirectory, ?_⟩
  rcases firstMarked_ok hfirst with ⟨⟨⟩, -⟩ | ⟨before, root, after, ⟨⟩, hsplit, hmarked, hbefore⟩
  rw [ancestors_eq, ← List.map_take, List.take_range] at hsplit
  have hbound : before.length < min (maxDepth + 1).toNat (directory.parts.length + 1) := by
    have hlength := congrArg List.length hsplit
    simp only [List.length_map, List.length_range, List.length_append, List.length_cons] at hlength
    omega
  have hplace : ∀ n (hn : n < min (maxDepth + 1).toNat (directory.parts.length + 1)),
      (before ++ root :: after)[n]? = some (above directory n) := by
    intro n hn
    rw [← hsplit, List.getElem?_map, List.getElem?_range hn, Option.map_some]
  refine ⟨before.length, by omega, ?_, hmarked, ?_⟩
  · simpa using hplace before.length hbound
  · intro fewer hfewer
    have hmem := hplace fewer (by omega)
    rw [List.getElem?_append_left hfewer] at hmem
    exact hbefore _ (List.mem_of_getElem? hmem)

/-- If no root is found, no directory within the bound holds a marker. -/
theorem findRoot_none (h : findRoot s start markers maxDepth = .ok none) :
    ∃ directory, s.resolve start = .ok directory ∧
      ∀ steps : Nat, (steps : Int) ≤ maxDepth → Unmarked s markers (above directory steps) := by
  obtain ⟨directory, hdirectory, hfirst⟩ := findRoot_ok h
  refine ⟨directory, hdirectory, ?_⟩
  rcases firstMarked_ok hfirst with ⟨-, hunmarked⟩ | ⟨before, root', after, ⟨⟩, -⟩
  intro steps hsteps
  rw [ancestors_eq, ← List.map_take, List.take_range] at hunmarked
  have hreached : ∀ n : Nat, (n : Int) ≤ maxDepth → n ≤ directory.parts.length →
      Unmarked s markers (above directory n) := by
    intro n hn hlength
    have hwithin : n < min (maxDepth + 1).toNat (directory.parts.length + 1) := by omega
    exact hunmarked _ (List.mem_map_of_mem (List.mem_range.mpr hwithin))
  by_cases htop : steps ≤ directory.parts.length
  · exact hreached steps hsteps htop
  · rw [above_top directory (by omega), ← above_top directory (Nat.le_refl _)]
    exact hreached _ (by omega) (Nat.le_refl _)

end SnippetRunner.Project
