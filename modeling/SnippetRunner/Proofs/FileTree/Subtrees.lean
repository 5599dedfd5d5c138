import Mathlib.Data.List.Induction
import Mathlib.Data.List.Nodup
import SnippetRunner.Proofs.FileTree.RealPaths

/-!
Directories with nothing but directories and files below them, each of them in a directory. A path
that goes down from such a directory is walked by its names and by nothing else, and leads to what
is found by them or to the first name that is free.
-/
namespace SnippetRunner.FileTree

structure Rooted (t : FileTree) (top : Location) : Prop where
  root : t.find? top = some .directory
  plain : PlainBelow t top
  closed : ∀ names name e, t.find? (top ++ (names ++ [name])) = some e →
    t.find? (top ++ names) = some .directory

theorem rooted_bare {t : FileTree} {top : Location} (hroot : t.find? top = some .directory)
    (hbare : ∀ names, names ≠ [] → t.find? (top ++ names) = none) : Rooted t top where
  root := hroot
  plain names e he := by
    by_cases hnames : names = []
    · rw [hnames, List.append_nil, hroot] at he
      cases he
      trivial
    · cases (hbare names hnames).symm.trans he
  closed names name e he := by
    cases (hbare _ (List.concat_ne_nil name names)).symm.trans he

def Walkable (names : List String) : Prop :=
  ∀ name ∈ names, name ≠ ".." ∧ name.utf8ByteSize ≤ maxNameOctets

theorem mem_keys_iff {t : FileTree} {loc : Location} (hloc : loc ≠ []) :
    loc ∈ t.entries.map (·.1) ↔ ∃ e, t.find? loc = some e := by
  rw [find?, if_neg (by simpa using hloc)]
  constructor
  · intro hmem
    cases hfound : t.entries.lookup loc with
    | some e => exact ⟨e, rfl⟩
    | none =>
      obtain ⟨entry, hentry, rfl⟩ := List.mem_map.mp hmem
      simpa using List.lookup_eq_none_iff.mp hfound entry hentry
  · rintro ⟨e, he⟩
    obtain ⟨before, after, heq, -⟩ := List.lookup_eq_some_iff.mp he
    simp [heq]

/-- The names in a directory are those of the entries at its places. -/
theorem mem_children_names {t : FileTree} {loc : Location} {name : String} :
    name ∈ (t.children loc).map (·.1) ↔ ∃ e, t.find? (loc ++ [name]) = some e := by
  rw [← mem_keys_iff (List.concat_ne_nil name loc), children, List.mem_map, List.mem_map]
  constructor
  · rintro ⟨child, hchild, rfl⟩
    obtain ⟨entry, hentry, hplace⟩ := List.mem_filterMap.mp hchild
    refine ⟨entry, hentry, ?_⟩
    split at hplace
    · next last hlast =>
      split at hplace
      · next habove =>
        cases hplace
        rw [← List.dropLast_append_getLast? last hlast]
        exact congrArg (· ++ [last]) (beq_iff_eq.mp habove)
      · cases hplace
    · cases hplace
  · rintro ⟨entry, hentry, hplace⟩
    refine ⟨(name, entry.2), List.mem_filterMap.mpr ⟨entry, hentry, ?_⟩, rfl⟩
    simp [hplace, parentOf]

section Walks

variable {t : FileTree} {top : Location} {follow : Bool} {budget : Nat} {names more : List String}
  {name : String} {e : Entry}

/-- Whatever lies below a place makes it a directory. -/
theorem Rooted.inner (h : Rooted t top) (hmore : more ≠ [])
    (he : t.find? (top ++ (names ++ more)) = some e) :
    t.find? (top ++ names) = some .directory := by
  induction more using List.reverseRecOn generalizing e with
  | nil => exact absurd rfl hmore
  | append_singleton front last ih =>
    rw [← List.append_assoc names front] at he
    have hdir := h.closed _ _ _ he
    by_cases hfront : front = []
    · rwa [hfront, List.append_nil] at hdir
    · exact ih hfront hdir

theorem Rooted.before (h : Rooted t top) (he : t.find? (top ++ (names ++ more)) = some e) :
    ∃ e', t.find? (top ++ names) = some e' := by
  by_cases hmore : more = []
  · rw [hmore, List.append_nil] at he
    exact ⟨e, he⟩
  · exact ⟨.directory, h.inner hmore he⟩

theorem Rooted.enter (h : Rooted t top) (hdir : t.find? (top ++ names) = some .directory) :
    Rooted t (top ++ names) where
  root := hdir
  plain more e he := h.plain (names ++ more) e (by rwa [← List.append_assoc])
  closed more last e he := by
    rw [List.append_assoc] at he ⊢
    rw [← List.append_assoc names] at he
    exact h.closed (names ++ more) last e he

/-- One step of a walk meets no link. -/
theorem Rooted.walkFrom_cons (h : Rooted t top) (hdots : name ≠ "..") {rest : List String} :
    walkFrom t follow budget top (name :: rest) =
      if name.utf8ByteSize > maxNameOctets then .error .nameTooLong
      else match t.find? (top ++ [name]) with
        | none => if rest.isEmpty then .ok (.vacant top name) else .error .noEntry
        | some _ => walkFrom t follow budget (top ++ [name]) rest := by
  rw [walkFrom, h.root]
  simp only [beq_iff_eq, hdots, if_false]
  split
  · rfl
  · split
    · next hnone => rw [hnone]
    · next target hlink => exact absurd hlink fun hlink => h.plain [name] _ hlink
    · next hentry => rw [hentry]

/-- What is there is walked to. -/
theorem Rooted.walkFrom_existing (h : Rooted t top) (hnames : Walkable names)
    (he : t.find? (top ++ names) = some e) :
    walkFrom t follow budget top names = .ok (.existing (top ++ names) e) := by
  induction names generalizing top with
  | nil =>
    rw [List.append_nil] at he ⊢
    rw [walkFrom, he]
  | cons n rest ih =>
    obtain ⟨hdots, hsize⟩ := hnames n (List.mem_cons_self ..)
    have hrest : Walkable rest := fun m hm => hnames m (List.mem_cons_of_mem _ hm)
    rw [h.walkFrom_cons hdots, if_neg (by omega)]
    cases rest with
    | nil =>
      rw [he]
      dsimp only
      rw [walkFrom, he]
    | cons next later =>
      have hdir : t.find? (top ++ [n]) = some .directory :=
        h.inner (List.cons_ne_nil next later) he
      rw [hdir]
      rw [List.append_cons top n (next :: later)] at he ⊢
      exact ih (h.enter hdir) hrest he

/-- On the way to what is there no link asks for a directory. -/
theorem Rooted.toDirectory (h : Rooted t top) (hnames : Walkable names)
    (he : t.find? (top ++ names) = some e) :
    (trailFrom t follow budget [] top names).toDirectory = false := by
  induction names generalizing top with
  | nil => simp [trailFrom]
  | cons n rest ih =>
    obtain ⟨hdots, hsize⟩ := hnames n (List.mem_cons_self ..)
    have hrest : Walkable rest := fun m hm => hnames m (List.mem_cons_of_mem _ hm)
    have hbelow : t.find? (top ++ ([n] ++ rest)) = some e := he
    obtain ⟨first, hfirst⟩ := h.before hbelow
    have hlink : ∀ target, first ≠ .link target := (h.plain [n] first hfirst).not_link
    rw [trailFrom_enter h.root hdots hsize hfirst hlink]
    cases rest with
    | nil => simp [Trail.after, trailFrom]
    | cons next later =>
      have hdir : t.find? (top ++ [n]) = some .directory :=
        h.inner (List.cons_ne_nil next later) he
      rw [List.append_cons top n (next :: later)] at he
      exact ih (h.enter hdir) hrest he

/-- A walk that ends went by names that can be walked by. -/
theorem Rooted.walkable (h : Rooted t top) (hdots : ".." ∉ names) {place : Place}
    (hwalk : walkFrom t follow budget top names = .ok place) : Walkable names := by
  induction names generalizing top with
  | nil => exact fun _ hmem => by cases hmem
  | cons n rest ih =>
    rw [List.mem_cons, not_or] at hdots
    rw [h.walkFrom_cons (Ne.symm hdots.1)] at hwalk
    split at hwalk
    · cases hwalk
    · next hsize =>
      refine List.forall_mem_cons.mpr ⟨⟨Ne.symm hdots.1, by omega⟩, ?_⟩
      cases rest with
      | nil => exact fun _ hmem => by cases hmem
      | cons next later =>
        cases hfound : t.find? (top ++ [n]) with
        | none => simp [hfound] at hwalk
        | some entry =>
          rw [hfound] at hwalk
          dsimp only at hwalk
          cases entry with
          | directory => exact ih (h.enter hfound) hdots.2 hwalk
          | _ => simp [walkFrom, hfound] at hwalk

/-- Where nothing is found on the way, nothing is there. -/
theorem Rooted.find?_eq_none (h : Rooted t top) (hdots : ".." ∉ names)
    (hwalk : walkFrom t follow budget top names = .error .noEntry) :
    t.find? (top ++ names) = none := by
  induction names generalizing top with
  | nil => simp [walkFrom, h.root] at hwalk
  | cons n rest ih =>
    rw [List.mem_cons, not_or] at hdots
    rw [h.walkFrom_cons (Ne.symm hdots.1)] at hwalk
    rw [List.append_cons]
    split at hwalk
    · cases hwalk
    · cases hfound : t.find? (top ++ [n]) with
      | none =>
        cases hthere : t.find? (top ++ [n] ++ rest) with
        | none => rfl
        | some e =>
          have hrest : rest ≠ [] := by
            rintro rfl
            simp [hfound] at hthere
          rw [List.append_assoc] at hthere
          cases hfound.symm.trans (h.inner hrest hthere)
      | some entry =>
        rw [hfound] at hwalk
        dsimp only at hwalk
        cases entry with
        | directory => exact ih (h.enter hfound) hdots.2 hwalk
        | _ => cases rest <;> simp [walkFrom, hfound] at hwalk

/-- A walk that ends at a free name came to the directory that would hold it. -/
theorem Rooted.vacant (h : Rooted t top) (hdots : ".." ∉ names) {parent : Location}
    (hwalk : walkFrom t follow budget top names = .ok (.vacant parent name)) :
    parent ++ [name] = top ++ names ∧ t.find? parent = some .directory := by
  induction names generalizing top with
  | nil => simp [walkFrom, h.root] at hwalk
  | cons n rest ih =>
    rw [List.mem_cons, not_or] at hdots
    rw [h.walkFrom_cons (Ne.symm hdots.1)] at hwalk
    split at hwalk
    · cases hwalk
    · cases hfound : t.find? (top ++ [n]) with
      | none =>
        rw [hfound] at hwalk
        cases rest with
        | nil =>
          cases hwalk
          exact ⟨rfl, h.root⟩
        | cons next later => cases hwalk
      | some entry =>
        rw [hfound] at hwalk
        dsimp only at hwalk
        cases entry with
        | directory =>
          rw [List.append_cons top n rest]
          exact ih (h.enter hfound) hdots.2 hwalk
        | _ => cases rest <;> simp [walkFrom, hfound] at hwalk

end Walks

def FormFault (e : FileError) : Prop := e = .nullByte ∨ e = .nameTooLong

def Conflict (e : FileError) : Prop := e = .entryExists ∨ e = .notDirectory ∨ e = .isDirectory

theorem FormFault.not_conflict {e : FileError} (h : FormFault e) : ¬ Conflict e := by
  rcases h with rfl | rfl <;> simp [Conflict]

section Paths

variable {t t' : FileTree} {cwd : Location} {base : Path} {top : Location} {names : List String}
  {name : String}

/-- A path that goes on from a directory is walked from there, or its form is refused. -/
theorem walk_under (hbase : stat t cwd base = .ok (top, .directory)) (hne : names ≠ []) :
    (∃ e, FormFault e ∧ ∀ t' follow, walk t' cwd follow (base.under names) = .error e) ∨
      ∀ follow, ∃ left, walk t cwd follow (base.under names) =
        walkFrom t follow left top names := by
  by_cases hnul : (base.under names).hasNul
  · exact .inl ⟨.nullByte, .inl rfl, fun _ _ => by rw [walk, if_pos hnul]⟩
  by_cases hlong : (base.under names).toString.utf8ByteSize ≥ maxPathOctets
  · exact .inl ⟨.nameTooLong, .inr rfl, fun _ _ => by rw [walk, if_neg hnul, if_pos hlong]⟩
  refine .inr fun follow => ?_
  rw [walk, if_neg hnul, if_neg hlong]
  exact walkFrom_through (fun h => absurd h hne) (walk_ok (stat_eq_ok.mp hbase))

theorem walkFrom_of_walk_under (hbase : stat t cwd base = .ok (top, .directory)) (hne : names ≠ [])
    {follow : Bool} {r : Except FileError Place}
    (h : walk t cwd follow (base.under names) = r) (hr : ∀ e, r = .error e → ¬ FormFault e) :
    ∃ left, walkFrom t follow left top names = r := by
  rcases walk_under hbase hne with ⟨e, he, hwalk⟩ | hwalk
  · exact absurd he (hr e (h.symm.trans (hwalk t follow)))
  · obtain ⟨left, hleft⟩ := hwalk follow
    exact ⟨left, hleft.symm.trans h⟩

/-- From a directory a path goes on by one more name, which is taken or free. -/
theorem walk_entry (hrooted : Rooted t top) (hbase : stat t cwd base = .ok (top, .directory))
    (hdir : t.find? (top ++ names) = some .directory) (hnames : Walkable names)
    (hdots : name ≠ "..") :
    (∃ e, FormFault e ∧ ∀ follow, walk t cwd follow (base.under (names ++ [name])) = .error e) ∨
      Walkable (names ++ [name]) ∧ ∀ follow, walk t cwd follow (base.under (names ++ [name])) =
        match t.find? (top ++ (names ++ [name])) with
        | none => .ok (.vacant (top ++ names) name)
        | some e => .ok (.existing (top ++ (names ++ [name])) e) := by
  rcases walk_under hbase (List.concat_ne_nil name names) with ⟨e, he, hwalk⟩ | hwalk
  · exact .inl ⟨e, he, hwalk t⟩
  have hstep (follow : Bool) : walk t cwd follow (base.under (names ++ [name])) =
      if name.utf8ByteSize > maxNameOctets then .error .nameTooLong
      else match t.find? (top ++ (names ++ [name])) with
        | none => .ok (.vacant (top ++ names) name)
        | some e => .ok (.existing (top ++ (names ++ [name])) e) := by
    obtain ⟨left, hleft⟩ := hwalk follow
    obtain ⟨left', hleft'⟩ : ∃ left', walkFrom t follow left top (names ++ [name]) =
        walkFrom t follow left' (top ++ names) [name] :=
      walkFrom_through (fun h => absurd h (List.cons_ne_nil name []))
        (hrooted.walkFrom_existing hnames hdir)
    rw [hleft, hleft', (hrooted.enter hdir).walkFrom_cons hdots, List.append_assoc]
    cases hfound : t.find? (top ++ (names ++ [name])) with
    | none => rfl
    | some e =>
      dsimp only
      rw [walkFrom, hfound]
  by_cases hsize : name.utf8ByteSize > maxNameOctets
  · exact .inl ⟨.nameTooLong, .inr rfl, fun follow => by rw [hstep, if_pos hsize]⟩
  · refine .inr ⟨?_, fun follow => by rw [hstep, if_neg hsize]⟩
    rintro n hn
    rcases List.mem_append.mp hn with hn | hn
    · exact hnames n hn
    · obtain rfl := List.mem_singleton.mp hn
      exact ⟨hdots, by omega⟩

/-- Where a path ends below a directory. -/
theorem stat_under (hrooted : Rooted t top) (hbase : stat t cwd base = .ok (top, .directory))
    (hdots : ".." ∉ names) {loc : Location} {e : Entry}
    (h : stat t cwd (base.under names) = .ok (loc, e)) : loc = top ++ names ∧ Walkable names := by
  by_cases hne : names = []
  · subst hne
    rw [Path.under_nil] at h
    cases hbase.symm.trans h
    exact ⟨(List.append_nil _).symm, fun _ hmem => by cases hmem⟩
  · obtain ⟨left, hfound⟩ := walkFrom_of_walk_under hbase hne (stat_eq_ok.mp h) nofun
    exact ⟨walkFrom_below hrooted.plain hdots hfound, hrooted.walkable hdots hfound⟩

structure Fits (base : Path) (names : List String) : Prop where
  nul : (base.under names).hasNul = false
  short : (base.under names).toString.utf8ByteSize < maxPathOctets
  walkable : Walkable names

private theorem size_intercalate_le (names : List String) (name : String) :
    (String.intercalate "/" names).utf8ByteSize ≤
      (String.intercalate "/" (names ++ [name])).utf8ByteSize := by
  induction names with
  | nil => simp
  | cons first rest ih =>
    have hmore : rest ++ [name] ≠ [] := by simp
    rw [List.cons_append, String.intercalate_cons_of_ne_nil hmore]
    by_cases hrest : rest = []
    · subst hrest
      simp only [String.intercalate_singleton, String.utf8ByteSize_append]
      omega
    · rw [String.intercalate_cons_of_ne_nil hrest]
      simp only [String.utf8ByteSize_append]
      omega

/-- A path gets no shorter by another name, unless it is the empty one, which is shown as a dot. -/
theorem size_entry_le {p : Path} (hform : p.isAbsolute = true ∨ p.parts ≠ []) (name : String) :
    p.toString.utf8ByteSize ≤ (p.entry name).toString.utf8ByteSize := by
  have hentry : (p.entry name).parts ≠ [] := List.concat_ne_nil name p.parts
  have hsize := size_intercalate_le p.parts name
  rw [Path.toString_of_parts hform, Path.toString_of_parts (.inr hentry),
    String.utf8ByteSize_append, String.utf8ByteSize_append]
  exact Nat.add_le_add_left hsize _

theorem Fits.front (hbase : base.parts ≠ []) {front : List String} (hfront : front <+: names)
    (h : Fits base names) : Fits base front := by
  obtain ⟨more, rfl⟩ := hfront
  induction more using List.reverseRecOn with
  | nil => rwa [List.append_nil] at h
  | append_singleton more last ih =>
    rw [← List.append_assoc] at h
    have hparts : (base.under (front ++ more)).parts ≠ [] :=
      List.append_ne_nil_of_left_ne_nil hbase _
    have hsize := size_entry_le (.inr hparts) last
    refine ih ⟨?_, ?_, fun n hn => h.walkable n (List.mem_append_left _ hn)⟩
    · have hnul := h.nul
      rw [Path.under, Path.hasNul, ← List.append_assoc, List.any_append,
        Bool.or_eq_false_iff] at hnul
      exact hnul.1
    · refine hsize.trans_lt ?_
      rw [Path.entry, Path.under, List.append_assoc]
      exact h.short

/-- What is below a directory is found by its names. -/
theorem walk_below (hrooted : Rooted t top) (hbase : stat t cwd base = .ok (top, .directory))
    (hfits : Fits base names) {follow : Bool} (hfollow : names = [] → follow = true) {e : Entry}
    (he : t.find? (top ++ names) = some e) :
    walk t cwd follow (base.under names) = .ok (.existing (top ++ names) e) := by
  obtain ⟨left, hleft⟩ : ∃ left,
      walkFrom t follow linkBudget (startOf cwd base) (base.parts ++ names) =
        walkFrom t follow left top names :=
    walkFrom_through hfollow (walk_ok (stat_eq_ok.mp hbase))
  rw [walk_short hfits.nul hfits.short]
  exact hleft.trans (hrooted.walkFrom_existing hfits.walkable he)

theorem stat_below (hrooted : Rooted t top) (hbase : stat t cwd base = .ok (top, .directory))
    (hfits : Fits base names) {e : Entry} (he : t.find? (top ++ names) = some e) :
    stat t cwd (base.under names) = .ok (top ++ names, e) :=
  stat_eq_ok.mpr (walk_below hrooted hbase hfits (fun _ => rfl) he)

/-- Below a directory that is seen whatever is found by names is seen too. -/
theorem statWithin_below (hrooted : Rooted t top)
    (hbase : statWithin t [] cwd base = .ok (top, .directory)) (hfits : Fits base names)
    {e : Entry} (he : t.find? (top ++ names) = some e) :
    statWithin t [] cwd (base.under names) = .ok (top ++ names, e) := by
  have hstat := (statWithin_eq_ok.mp hbase).1
  refine statWithin_eq_ok.mpr
    ⟨stat_below hrooted hstat hfits he, Trail.barredBy_nil _, fun hto => ?_⟩
  by_cases hne : names = []
  · rw [hne, List.append_nil, hrooted.root] at he
    exact (Option.some.inj he).symm
  · have hcurrent : base.under names ≠ Path.current := fun h =>
      hne (List.append_eq_nil_iff.mp (congrArg Path.parts h)).2
    obtain ⟨left, hleft⟩ := toDirectory_through true [] (t := t) hne
      (walk_ok (stat_eq_ok.mp hstat))
    rw [trail, beq_eq_false_iff_ne.mpr hcurrent] at hto
    cases (hleft.symm.trans hto).symm.trans (hrooted.toDirectory hfits.walkable he)

/-- No place is deeper than there are entries. -/
theorem Rooted.depth_le (h : Rooted t top) {e : Entry} (he : t.find? (top ++ names) = some e) :
    names.length ≤ t.entries.length := by
  let places := (List.range names.length).map fun i => top ++ names.take (i + 1)
  have hnodup : places.Nodup := by
    refine List.Nodup.map_on (fun i hi j hj heq => ?_) List.nodup_range
    have hlength := congrArg List.length (List.append_cancel_left heq)
    rw [List.mem_range] at hi hj
    simp only [List.length_take] at hlength
    omega
  have hsub : places ⊆ t.entries.map (·.1) := by
    intro place hplace
    obtain ⟨i, hi, rfl⟩ := List.mem_map.mp hplace
    rw [List.mem_range] at hi
    rw [← List.take_append_drop (i + 1) names] at he
    obtain ⟨e', he'⟩ := h.before he
    have hne : top ++ names.take (i + 1) ≠ [] := by
      rw [← List.length_pos_iff, List.length_append, List.length_take]
      omega
    exact (mem_keys_iff hne).mpr ⟨e', he'⟩
  have hlength := hnodup.length_le_of_subset hsub
  simpa [places] using hlength

end Paths

end SnippetRunner.FileTree
