import Mathlib.Algebra.GroupWithZero.Nat
import Mathlib.Algebra.Order.BigOperators.Group.List
import Mathlib.Algebra.Order.Group.Nat
import SnippetRunner.Proofs.FileTree.Trails
import SnippetRunner.Proofs.Text.PathNames

/-!
The real path of a path that leads somewhere through directories that may be searched. Where a
walk that follows links ends, the search for the real path ends too: a link that the walk came
through is never met inside itself, because following it would then have taken more links than
it took.
-/
namespace SnippetRunner.FileTree

/-- A place that is walked to by its own names: through directories that are not barred, all the
way, and through no link. -/
inductive Grounded (t : FileTree) (barred : List Location) : Location → Prop
  | top : Grounded t barred []
  | enter {here : Location} {name : String} {e : Entry} :
      Grounded t barred here → here ∉ barred → t.find? here = some .directory → name ≠ ".." →
      name.utf8ByteSize ≤ maxNameOctets → t.find? (here ++ [name]) = some e →
      (∀ target, e ≠ .link target) → Grounded t barred (here ++ [name])

/-- Names that lead from one place to another, with the number of links on the way. No name is
looked up in a directory that is barred. -/
inductive Leads (t : FileTree) (barred : List Location) :
    Location → List String → Nat → Location → Prop
  | arrived {here : Location} : Leads t barred here [] 0 here
  | up {here loc : Location} {rest : List String} {links : Nat} :
      Leads t barred (parentOf here) rest links loc → Leads t barred here (".." :: rest) links loc
  | enter {here loc : Location} {name : String} {rest : List String} {links : Nat} {e : Entry} :
      here ∉ barred → t.find? here = some .directory → name ≠ ".." →
      name.utf8ByteSize ≤ maxNameOctets → t.find? (here ++ [name]) = some e →
      (∀ target, e ≠ .link target) → Leads t barred (here ++ [name]) rest links loc →
      Leads t barred here (name :: rest) links loc
  | link {here mid loc : Location} {name target : String} {rest : List String}
      {inner outer : Nat} :
      here ∉ barred → t.find? here = some .directory → name ≠ ".." →
      name.utf8ByteSize ≤ maxNameOctets → t.find? (here ++ [name]) = some (.link target) →
      Leads t barred (targetStart here target) (Path.partsOf target) inner mid →
      Leads t barred mid rest outer loc → Leads t barred here (name :: rest) (inner + 1 + outer) loc

variable {t : FileTree} {barred : List Location} {here loc : Location} {names more : List String}

section Grounded

theorem Grounded.parent (h : Grounded t barred loc) : Grounded t barred (parentOf loc) := by
  cases h with
  | top => exact .top
  | enter habove => simpa [parentOf] using habove

/-- The way from the top to a grounded place follows no link. -/
theorem Grounded.walkFrom_top {follow : Bool} {budget : Nat} (h : Grounded t barred loc) :
    walkFrom t follow budget [] (loc ++ more) = walkFrom t follow budget loc more := by
  induction h generalizing more with
  | top => rfl
  | @enter here name e habove hfree hdir hdots hsize he hlink ih =>
    rw [List.append_assoc, ih]
    exact walkFrom_enter hdir hdots hsize he hlink

/-- On the way from the top to a grounded place nothing is barred. -/
theorem Grounded.barredBy_top {follow : Bool} {budget : Nat} {tail : List String}
    (h : Grounded t barred loc) :
    (trailFrom t follow budget tail [] (loc ++ more)).barredBy barred =
      (trailFrom t follow budget tail loc more).barredBy barred := by
  induction h generalizing more with
  | top => rfl
  | @enter here name e habove hfree hdir hdots hsize he hlink ih =>
    rw [List.append_assoc, ih, List.singleton_append,
      trailFrom_enter hdir hdots hsize he hlink]
    simp [hfree]

theorem Grounded.targetStart (h : Grounded t barred here) (target : String) :
    Grounded t barred (targetStart here target) := by
  unfold FileTree.targetStart
  split
  · exact .top
  · exact h

theorem Leads.grounded {links : Nat} (h : Leads t barred here names links loc)
    (hhere : Grounded t barred here) : Grounded t barred loc := by
  induction h with
  | arrived => exact hhere
  | up _ ih => exact ih hhere.parent
  | enter hfree hdir hdots hsize he hlink _ ih =>
    exact ih (hhere.enter hfree hdir hdots hsize he hlink)
  | link _ _ _ _ _ _ _ ihtarget ihrest => exact ihrest (ihtarget (hhere.targetStart _))

end Grounded

section Leads

theorem Leads.append {first second : List String} {links : Nat}
    (h : Leads t barred here (first ++ second) links loc) :
    ∃ mid inner outer, Leads t barred here first inner mid ∧
      Leads t barred mid second outer loc ∧ links = inner + outer := by
  induction first generalizing here links with
  | nil => exact ⟨here, 0, links, .arrived, h, by omega⟩
  | cons name first ih =>
    cases h with
    | up hrest =>
      obtain ⟨mid, inner, outer, hfirst, hsecond, hlinks⟩ := ih hrest
      exact ⟨mid, inner, outer, .up hfirst, hsecond, hlinks⟩
    | enter hfree hdir hdots hsize he hlink hrest =>
      obtain ⟨mid, inner, outer, hfirst, hsecond, hlinks⟩ := ih hrest
      exact ⟨mid, inner, outer, .enter hfree hdir hdots hsize he hlink hfirst, hsecond, hlinks⟩
    | link hfree hdir hdots hsize hlink htarget hrest =>
      obtain ⟨mid, inner, outer, hfirst, hsecond, rfl⟩ := ih hrest
      exact ⟨mid, _, outer, .link hfree hdir hdots hsize hlink htarget hfirst, hsecond, by omega⟩

theorem Leads.unique {links links' : Nat} {loc' : Location}
    (h : Leads t barred here names links loc) (h' : Leads t barred here names links' loc') :
    links = links' ∧ loc = loc' := by
  induction h generalizing links' loc' with
  | arrived =>
    cases h'
    exact ⟨rfl, rfl⟩
  | up _ ih =>
    cases h' with
    | up hrest => exact ih hrest
    | enter _ _ hdots => exact absurd rfl hdots
    | link _ _ hdots => exact absurd rfl hdots
  | enter _ _ hdots _ he hlink _ ih =>
    cases h' with
    | up => exact absurd rfl hdots
    | enter _ _ _ _ _ _ hrest => exact ih hrest
    | link _ _ _ _ he' => exact absurd (Option.some.inj (he.symm.trans he')) (hlink _)
  | link _ _ hdots _ he _ _ ihtarget ihrest =>
    cases h' with
    | up => exact absurd rfl hdots
    | enter _ _ _ _ he' hlink => exact absurd (Option.some.inj (he'.symm.trans he)) (hlink _)
    | link _ _ _ _ he' htarget hrest =>
      cases he.symm.trans he'
      obtain ⟨rfl, rfl⟩ := ihtarget htarget
      obtain ⟨rfl, rfl⟩ := ihrest hrest
      exact ⟨rfl, rfl⟩

/-- A walk that follows links, meets no barred directory and ends at an entry has been led
there. -/
theorem leads_of_walkFrom {budget : Nat} {tail : List String} {e : Entry}
    (h : walkFrom t true budget here names = .ok (.existing loc e))
    (hfree : (trailFrom t true budget tail here names).barredBy barred = false) :
    ∃ links, Leads t barred here names links loc := by
  fun_induction walkFrom t true budget here names generalizing tail with
  | case1 =>
    cases h
    exact ⟨0, .arrived⟩
  | case3 budget here name rest hdir hdots ih =>
    obtain rfl := by simpa using hdots
    rw [trailFrom_up hdir, Trail.barredBy_after, Bool.or_eq_false_iff] at hfree
    obtain ⟨links, hrest⟩ := ih h hfree.2
    exact ⟨links, .up hrest⟩
  | case7 => simp_all
  | case10 here name rest hdir hdots hsize target hlink hlast budget hempty ih =>
    have hname : name ≠ ".." := by simpa using hdots
    rw [trailFrom_target (fun _ => rfl) hdir hname (by omega) hlink (by simpa using hempty),
      Trail.barredBy_after, Bool.or_eq_false_iff] at hfree
    obtain ⟨links, hrest⟩ := ih h hfree.2
    obtain ⟨mid, inner, outer, htarget, hrest, -⟩ := hrest.append
    exact ⟨_, .link (by simpa using hfree.1) hdir hname (by omega) hlink htarget hrest⟩
  | case11 budget here name rest hdir hdots hsize e hlink hentry ih =>
    have hname : name ≠ ".." := by simpa using hdots
    rw [trailFrom_enter hdir hname (by omega) hentry hlink, Trail.barredBy_after,
      Bool.or_eq_false_iff] at hfree
    obtain ⟨links, hrest⟩ := ih h hfree.2
    exact ⟨links, .enter (by simpa using hfree.1) hdir hname (by omega) hentry hlink hrest⟩
  | _ => cases h

end Leads

section LinkLeads

def LinkLeads (t : FileTree) (barred : List Location) (loc : Location) (links : Nat)
    (place : Location) : Prop :=
  ∃ here name target, loc = here ++ [name] ∧ t.find? loc = some (.link target) ∧
    Leads t barred (targetStart here target) (Path.partsOf target) links place

theorem LinkLeads.unique {links links' : Nat} {place place' : Location}
    (h : LinkLeads t barred loc links place) (h' : LinkLeads t barred loc links' place') :
    links = links' ∧ place = place' := by
  obtain ⟨here, name, target, rfl, hlink, hleads⟩ := h
  obtain ⟨here', name', target', hloc, hlink', hleads'⟩ := h'
  obtain ⟨rfl, -⟩ := List.append_inj' hloc rfl
  cases hlink.symm.trans hlink'
  exact hleads.unique hleads'

/-- What the search for a real path has noted about links. One it is done with leads to the
place noted, and one it is still inside takes no fewer links than are left to follow. -/
structure Noted (t : FileTree) (barred : List Location) (seen : SeenLinks) (links : Nat) :
    Prop where
  done : ∀ loc place, seen.lookup loc = some (some place) → ∃ n, LinkLeads t barred loc n place
  inside : ∀ loc n place, seen.lookup loc = some none → LinkLeads t barred loc n place → links ≤ n

variable {seen : SeenLinks} {links : Nat}

theorem Noted.nil : Noted t barred [] links :=
  ⟨by simp, by simp⟩

theorem Noted.fewer {links' : Nat} (h : Noted t barred seen links) (hle : links' ≤ links) :
    Noted t barred seen links' :=
  ⟨h.done, fun loc n place hseen hleads => Nat.le_trans hle (h.inside loc n place hseen hleads)⟩

theorem lookup_cons {value : Option Location} {loc loc' : Location} :
    ((loc, value) :: seen).lookup loc' =
      if loc' = loc then some value else seen.lookup loc' := by
  by_cases h : loc' = loc
  · simp [h]
  · simp [List.lookup_cons, h, beq_eq_false_iff_ne.mpr h]

/-- Inside a link there are fewer links to follow than through it. -/
theorem Noted.into {place : Location} (h : Noted t barred seen links) {inner : Nat}
    (hleads : LinkLeads t barred loc inner place) (hless : inner ≤ links) :
    Noted t barred ((loc, none) :: seen) inner := by
  constructor
  · intro loc' place' hseen
    rw [lookup_cons] at hseen
    split at hseen
    · cases hseen
    · exact h.done loc' place' hseen
  · intro loc' n place' hseen hleads'
    rw [lookup_cons] at hseen
    split at hseen
    · rename_i heq
      subst heq
      exact Nat.le_of_eq (hleads.unique hleads').1
    · exact Nat.le_trans hless (h.inside loc' n place' hseen hleads')

/-- After a link it is noted where the link leads. -/
theorem Noted.outOf {seen' : SeenLinks} {place : Location} {inner : Nat}
    (h : Noted t barred seen links) (hdone : Noted t barred seen' 0)
    (hleads : LinkLeads t barred loc inner place)
    (hinside : ∀ loc', seen'.lookup loc' = some none → loc' ≠ loc →
      seen.lookup loc' = some none) :
    Noted t barred ((loc, some place) :: seen') links := by
  constructor
  · intro loc' place' hseen
    rw [lookup_cons] at hseen
    split at hseen
    · rename_i heq
      subst heq
      cases hseen
      exact ⟨inner, hleads⟩
    · exact hdone.done loc' place' hseen
  · intro loc' n place' hseen hleads'
    rw [lookup_cons] at hseen
    split at hseen
    · cases hseen
    · rename_i hne
      exact h.inside loc' n place' (hinside loc' hseen hne) hleads'

end LinkLeads

section Work

def linkWork : Entry → Nat
  | .link target => (Path.partsOf target).length + 2
  | _ => 0

def workLeft (t : FileTree) (seen : SeenLinks) : Nat :=
  (t.entries.map fun e => if (seen.lookup e.1).isNone then linkWork e.2 else 0).sum

variable {seen : SeenLinks}

private theorem sum_add_le_sum {α : Type} {f g : α → Nat} {l : List α} {x : α} {n : Nat}
    (h : ∀ y ∈ l, f y ≤ g y) (hx : x ∈ l) (hn : f x + n ≤ g x) :
    (l.map f).sum + n ≤ (l.map g).sum := by
  obtain ⟨before, after, rfl⟩ := List.append_of_mem hx
  have hbefore := List.sum_le_sum fun y hy => h y (List.mem_append_left _ hy)
  have hafter := List.sum_le_sum fun y hy =>
    h y (List.mem_append_right _ (List.mem_cons_of_mem _ hy))
  simp only [List.map_append, List.map_cons, List.sum_append, List.sum_cons]
  omega

theorem workLeft_cons_le (t : FileTree) (seen : SeenLinks) (loc : Location)
    (value : Option Location) :
    workLeft t ((loc, value) :: seen) ≤ workLeft t seen := by
  apply List.sum_le_sum
  intro e _
  rw [lookup_cons]
  split
  · simp
  · exact Nat.le_refl _

/-- Meeting a link takes its own steps from those that links can still add. -/
theorem workLeft_met {target : String} (value : Option Location)
    (hmem : (loc, Entry.link target) ∈ t.entries) (hnew : seen.lookup loc = none) :
    workLeft t ((loc, value) :: seen) + ((Path.partsOf target).length + 2) ≤
      workLeft t seen := by
  refine sum_add_le_sum ?_ hmem ?_
  · intro e _
    rw [lookup_cons]
    split
    · simp
    · exact Nat.le_refl _
  · simp [hnew, linkWork]

theorem mem_entries_of_find? {target : String} (h : t.find? loc = some (.link target)) :
    (loc, Entry.link target) ∈ t.entries := by
  unfold find? at h
  split at h
  · cases h
  · obtain ⟨before, after, heq, -⟩ := List.lookup_eq_some_iff.mp h
    simp [heq]

private theorem foldl_linkTargets (entries : List (Location × Entry)) (n : Nat) :
    (linkTargets ⟨entries⟩).foldl (fun n target => n + (Path.partsOf target).length + 2) n =
      n + (entries.map fun e => linkWork e.2).sum := by
  induction entries generalizing n with
  | nil => simp [linkTargets]
  | cons e entries ih =>
    obtain ⟨loc, entry⟩ := e
    cases entry with
    | link target =>
      have hcons : linkTargets ⟨(loc, .link target) :: entries⟩ =
          target :: linkTargets ⟨entries⟩ := rfl
      rw [hcons, List.foldl_cons, ih, List.map_cons, List.sum_cons]
      simp only [linkWork]
      omega
    | _ => exact (ih n).trans (by simp [linkWork])

theorem realFuel_eq (t : FileTree) (names : List String) :
    realFuel t names = names.length + 1 + workLeft t [] := by
  simpa [realFuel, workLeft] using foldl_linkTargets t.entries (names.length + 1)

end Work

section RealFrom

variable {seen : SeenLinks} {fuel : Nat} {name : String} {rest : List Pending}

theorem realFrom_enter {e : Entry} (hhere : Grounded t barred here)
    (hdir : t.find? here = some .directory) (hdots : name ≠ "..")
    (hsize : name.utf8ByteSize ≤ maxNameOctets) (he : t.find? (here ++ [name]) = some e)
    (hlink : ∀ target, e ≠ .link target) :
    realFrom t barred (fuel + 1) seen here (.name name :: rest) =
      realFrom t barred fuel seen (here ++ [name]) rest := by
  have hwalk : walkFrom t false linkBudget [] (here ++ [name]) =
      .ok (.existing (here ++ [name]) e) := by
    rw [hhere.walkFrom_top, walkFrom_enter hdir hdots hsize he hlink, walkFrom, he]
  have hnone : linkAt t barred (here ++ [name]) = none := by
    rw [linkAt, hwalk]
    cases e with
    | link target => exact absurd rfl (hlink target)
    | _ => simp
  simp [realFrom, hdots, hnone]

section Link

variable {target : String} (hhere : Grounded t barred here) (hfree : here ∉ barred)
  (hdir : t.find? here = some .directory) (hdots : name ≠ "..")
  (hsize : name.utf8ByteSize ≤ maxNameOctets)
  (hlink : t.find? (here ++ [name]) = some (.link target))

include hhere hfree hdir hdots hsize hlink

theorem linkAt_link : linkAt t barred (here ++ [name]) = some (here ++ [name], target) := by
  have hnot : ¬ name.utf8ByteSize > maxNameOctets := by omega
  have hwalk : walkFrom t false linkBudget [] (here ++ [name]) =
      .ok (.existing (here ++ [name]) (.link target)) := by
    rw [hhere.walkFrom_top, walkFrom, hdir]
    simp [hdots, hnot, hlink]
  have htrail : trailFrom t false linkBudget [] here [name] = ⟨[here], false⟩ := by
    rw [trailFrom, hdir]
    simp [hdots, hnot, hlink]
  rw [linkAt, hhere.barredBy_top, htrail, hwalk]
  simp [Trail.barredBy, hfree]

/-- A link that was not met before is replaced by its target, with a mark where that ends. -/
theorem realFrom_first (hseen : seen.lookup (here ++ [name]) = none) :
    realFrom t barred (fuel + 1) seen here (.name name :: rest) =
      realFrom t barred fuel ((here ++ [name], none) :: seen) (targetStart here target)
        ((Path.partsOf target).map .name ++ .linkEnd (here ++ [name]) :: rest) := by
  simp [realFrom, hdots, linkAt_link hhere hfree hdir hdots hsize hlink, hseen]

/-- A link that the search is done with is replaced by the place noted for it. -/
theorem realFrom_again {place : Location}
    (hseen : seen.lookup (here ++ [name]) = some (some place)) :
    realFrom t barred (fuel + 1) seen here (.name name :: rest) =
      realFrom t barred fuel seen place rest := by
  simp [realFrom, hdots, linkAt_link hhere hfree hdir hdots hsize hlink, hseen]

end Link

/-- The search for the real path goes where the names lead and on from there. The steps still
to spare stay, and so do the notes about links that the search was inside of before. -/
theorem realFrom_leads {links : Nat} (h : Leads t barred here names links loc)
    (hhere : Grounded t barred here) (hnoted : Noted t barred seen links) (spare fuel : Nat)
    (rest : List Pending) (hfuel : names.length + workLeft t seen + spare ≤ fuel) :
    ∃ fuel' seen', realFrom t barred fuel seen here (names.map .name ++ rest) =
        realFrom t barred fuel' seen' loc rest ∧
      workLeft t seen' + spare ≤ fuel' ∧ Noted t barred seen' 0 ∧
      ∀ loc', seen'.lookup loc' = some none → seen.lookup loc' = some none := by
  induction h generalizing seen spare fuel rest with
  | arrived =>
    exact ⟨fuel, seen, rfl, by simpa using hfuel, hnoted, fun _ h => h⟩
  | up _ ih =>
    obtain ⟨fuel, rfl⟩ : ∃ n, fuel = n + 1 := ⟨fuel - 1, by simp at hfuel; omega⟩
    rw [List.map_cons, List.cons_append, realFrom_up]
    exact ih hhere.parent hnoted spare fuel rest (by simp at hfuel; omega)
  | enter hfree hdir hdots hsize he hlink _ ih =>
    obtain ⟨fuel, rfl⟩ : ∃ n, fuel = n + 1 := ⟨fuel - 1, by simp at hfuel; omega⟩
    rw [List.map_cons, List.cons_append, realFrom_enter hhere hdir hdots hsize he hlink]
    exact ih (hhere.enter hfree hdir hdots hsize he hlink) hnoted spare fuel rest
      (by simp at hfuel; omega)
  | @link here mid loc name target names inner outer hfree hdir hdots hsize hlink htarget hrest
      ihtarget ihrest =>
    obtain ⟨fuel, rfl⟩ : ∃ n, fuel = n + 1 := ⟨fuel - 1, by simp at hfuel; omega⟩
    have hleads : LinkLeads t barred (here ++ [name]) inner mid :=
      ⟨here, name, target, rfl, hlink, htarget⟩
    have hmid : Grounded t barred mid := htarget.grounded (hhere.targetStart target)
    rw [List.map_cons, List.cons_append]
    cases hseen : seen.lookup (here ++ [name]) with
    | none =>
      -- Met for the first time: through the target to the end of the link, then onward.
      have hwork := workLeft_met none (mem_entries_of_find? hlink) hseen
      obtain ⟨fuel₁, seen₁, heq, hfuel₁, hdone, hinside⟩ :=
        ihtarget (hhere.targetStart target) (hnoted.into hleads (by omega))
          (names.length + 1 + spare) fuel
          (.linkEnd (here ++ [name]) :: (names.map .name ++ rest)) (by simp at hfuel; omega)
      obtain ⟨fuel₁, rfl⟩ : ∃ n, fuel₁ = n + 1 := ⟨fuel₁ - 1, by omega⟩
      have hnoted' : Noted t barred ((here ++ [name], some mid) :: seen₁) outer := by
        refine (hnoted.fewer (by omega)).outOf hdone hleads ?_
        intro loc' hloc' hne
        simpa [lookup_cons, hne] using hinside loc' hloc'
      have hless := workLeft_cons_le t seen₁ (here ++ [name]) (some mid)
      obtain ⟨fuel', seen', heq', hfuel', hdone', hinside'⟩ :=
        ihrest hmid hnoted' spare fuel₁ rest (by omega)
      refine ⟨fuel', seen', ?_, hfuel', hdone', ?_⟩
      · rw [realFrom_first hhere hfree hdir hdots hsize hlink hseen, heq, realFrom, heq']
      · intro loc' hloc'
        have hloc := hinside' loc' hloc'
        rw [lookup_cons] at hloc
        split at hloc
        · cases hloc
        · rename_i hne
          simpa [lookup_cons, hne] using hinside loc' hloc
    | some noted =>
      cases noted with
      | none =>
        -- Inside itself there would be fewer links left than it takes.
        have hleft := hnoted.inside _ _ _ hseen hleads
        omega
      | some place =>
        obtain ⟨n, hplace⟩ := hnoted.done _ _ hseen
        obtain ⟨-, rfl⟩ := hplace.unique hleads
        rw [realFrom_again hhere hfree hdir hdots hsize hlink hseen]
        exact ihrest hmid (hnoted.fewer (by omega)) spare fuel rest (by simp at hfuel; omega)

end RealFrom

section Resolve

variable {cwd : Location} {p : Path} {e : Entry}

theorem Grounded.startOf (hcwd : Grounded t barred cwd) (p : Path) :
    Grounded t barred (startOf cwd p) := by
  unfold FileTree.startOf
  split
  · exact .top
  · exact hcwd

/-- The real path of a path that leads somewhere is the place to which it leads. -/
theorem realPath_of_leads {links : Nat} (hcwd : Grounded t barred cwd)
    (h : Leads t barred (startOf cwd p) p.parts links loc) : realPath t barred cwd p = loc := by
  obtain ⟨fuel, seen, heq, hfuel, -, -⟩ :=
    realFrom_leads h (hcwd.startOf p) .nil 1 (realFuel t p.parts) [] (by rw [realFuel_eq]; omega)
  obtain ⟨fuel, rfl⟩ : ∃ n, fuel = n + 1 := ⟨fuel - 1, by omega⟩
  rw [List.append_nil] at heq
  rw [realPath, heq, realFrom]

theorem resolve_of_leads {links : Nat} (hcwd : Grounded t barred cwd) (hnul : p.hasNul = false)
    (h : Leads t barred (startOf cwd p) p.parts links loc) :
    t.resolve barred cwd p = .ok (pathOf loc) := by
  -- No link is followed on the way to a real path, so there are not too many of them.
  have hwalk : walkFrom t true linkBudget [] loc ≠ .error .linkLoop := by
    have hend : walkFrom t true linkBudget [] (loc ++ []) = walkFrom t true linkBudget loc [] :=
      (h.grounded (hcwd.startOf p)).walkFrom_top
    rw [List.append_nil] at hend
    rw [hend, walkFrom]
    cases t.find? loc <;> exact fun hloop => by cases hloop
  have hstat : statWithin t barred [] (pathOf loc) ≠ .error .linkLoop :=
    fun hloop => hwalk (walkFrom_of_linkLoop hloop)
  simp [resolve, hnul, realPath_of_leads hcwd h]

theorem leads_of_statWithin (h : statWithin t barred cwd p = .ok (loc, e)) :
    ∃ links, Leads t barred (startOf cwd p) p.parts links loc := by
  obtain ⟨hstat, hfree, -⟩ := statWithin_eq_ok.mp h
  exact leads_of_walkFrom (walk_ok (stat_eq_ok.mp hstat)) hfree

theorem hasNul_of_statWithin {found : Location × Entry}
    (h : statWithin t barred cwd p = .ok found) : p.hasNul = false :=
  hasNul_of_stat (statWithin_eq_ok.mp h).1

theorem resolve_of_statWithin (hcwd : Grounded t barred cwd)
    (h : statWithin t barred cwd p = .ok (loc, e)) :
    t.resolve barred cwd p = .ok (pathOf loc) := by
  obtain ⟨links, hleads⟩ := leads_of_statWithin h
  exact resolve_of_leads hcwd (hasNul_of_statWithin h) hleads

/-- The path above one that leads somewhere has a real path too. -/
theorem resolve_parent_of_statWithin (hcwd : Grounded t barred cwd)
    (h : statWithin t barred cwd p = .ok (loc, e)) :
    ∃ above, t.resolve barred cwd p.parent = .ok (pathOf above) := by
  have hnul := hasNul_parent (hasNul_of_statWithin h)
  obtain ⟨links, hleads⟩ := leads_of_statWithin h
  cases hparts : p.parts.getLast? with
  | none =>
    have hparent : p.parent = p := by
      obtain ⟨anchor, parts⟩ := p
      obtain rfl := List.getLast?_eq_none_iff.mp hparts
      rfl
    rw [hparent]
    exact ⟨loc, resolve_of_statWithin hcwd h⟩
  | some last =>
    obtain ⟨names, hnames⟩ := List.getLast?_eq_some_iff.mp hparts
    have hstart : startOf cwd p.parent = startOf cwd p := rfl
    have hparent : p.parent.parts = names := by simp [Path.parent, hnames]
    rw [hnames, ← hparent, ← hstart] at hleads
    obtain ⟨above, inner, outer, habove, -, -⟩ := hleads.append
    exact ⟨above, resolve_of_leads hcwd hnul habove⟩

end Resolve

end SnippetRunner.FileTree
