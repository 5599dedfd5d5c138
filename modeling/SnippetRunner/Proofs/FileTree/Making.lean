import SnippetRunner.Proofs.FileTree.Subtrees

/-!
Making directories and writing files below a directory that holds nothing but directories and
files. Only what is missing on the way is made, and a conflict with what is there is found before
anything is changed.
-/
namespace SnippetRunner.FileTree

section Making

variable {t t' : FileTree} {cwd : Location} {base : Path} {top : Location} {names : List String}
  {name : String}

structure Made (t t' : FileTree) (top : Location) (names : List String) : Prop where
  added : Added t t'
  walkable : Walkable names
  here : ∀ front, front <+: names → t'.find? (top ++ front) = some .directory
  elsewhere : ∀ loc, (∀ front, front <+: names → loc ≠ top ++ front) → t'.find? loc = t.find? loc

theorem Made.below (h : Made t t' top names) {other : List String} (hother : ¬ other <+: names) :
    t'.find? (top ++ other) = t.find? (top ++ other) :=
  h.elsewhere _ fun _ hfront heq => hother (List.append_cancel_left heq ▸ hfront)

theorem Made.rooted (hrooted : Rooted t top) (h : Made t t' top names) : Rooted t' top where
  root := by simpa using h.here [] List.nil_prefix
  plain other e he := by
    by_cases hother : other <+: names
    · cases (h.here other hother).symm.trans he
      trivial
    · exact hrooted.plain other e (h.below hother ▸ he)
  closed other last e he := by
    by_cases hother : other ++ [last] <+: names
    · exact h.here other ((List.prefix_append ..).trans hother)
    · rw [h.below hother] at he
      exact h.added.unchanged _ _ (hrooted.closed other last e he)

theorem Made.stat (hbase : stat t cwd base = .ok (top, .directory)) (h : Made t t' top names) :
    stat t' cwd base = .ok (top, .directory) :=
  stat_grown h.added.grown hbase (by simpa using h.here [] List.nil_prefix)

/-- Nothing is made where there is a directory. -/
theorem made_of_directory (hrooted : Rooted t top) (hnames : Walkable names)
    (hdir : t.find? (top ++ names) = some .directory) : Made t t top names where
  added := .refl t
  walkable := hnames
  here front hfront := by
    obtain ⟨more, rfl⟩ := hfront
    by_cases hmore : more = []
    · rwa [hmore, List.append_nil] at hdir
    · exact hrooted.inner hmore hdir
  elsewhere _ _ := rfl

/-- A directory is made in one that is there. -/
theorem Made.insert (h : Made t t' top names)
    (hfree : t'.find? (top ++ (names ++ [name])) = none)
    (hnames : Walkable (names ++ [name])) :
    Made t (t'.insert (top ++ (names ++ [name])) .directory) top (names ++ [name]) where
  added := h.added.trans (added_insert (by simp) trivial hfree)
  walkable := hnames
  here front hfront := by
    rw [find?_insert _ (by simp)]
    rcases List.prefix_concat_iff.mp hfront with rfl | hfront
    · rw [if_pos rfl]
    · split
      · rfl
      · exact h.here front hfront
  elsewhere loc hloc := by
    rw [find?_insert _ (by simp), if_neg (hloc _ List.prefix_rfl)]
    exact h.elsewhere loc fun front hfront => hloc front (hfront.trans (List.prefix_append ..))

theorem makeDirectory_missing {p : Path} (h : t.makeDirectory cwd p = .error .noEntry) :
    walk t cwd false p = .error .noEntry := by
  unfold makeDirectory at h
  split at h
  · cases h
  · cases h
  · next hwalk => rwa [Except.error.inj h] at hwalk

/-- A path whose form is refused is refused for that also when a directory is made there. -/
theorem settleMake_form {p : Path} {e : FileError} (he : FormFault e)
    (hwalk : ∀ follow, walk t cwd follow p = .error e) :
    ∃ fault, settleMake t cwd p e = (t, some fault) ∧ FormFault fault.error := by
  rcases settleMake_cases t cwd p e with ⟨⟨loc, hstat⟩, -⟩ | ⟨fault, hsettle, hfault | hfault⟩
  · cases (hwalk true).symm.trans (stat_eq_ok.mp hstat)
  · exact ⟨fault, hsettle, hfault ▸ he⟩
  · exact ⟨fault, hsettle, .inr (ask_eq_error.mp hfault).2⟩

/-- Making directories below a directory either makes those on the way that are missing, or fails,
and in a conflict it has made none. -/
theorem makeDirectories_under (hrooted : Rooted t top)
    (hbase : stat t cwd base = .ok (top, .directory)) (hdots : ".." ∉ names) :
    (∃ t', t.makeDirectories cwd (base.under names) = (t', none) ∧ Made t t' top names) ∨
      ∃ t' fault, t.makeDirectories cwd (base.under names) = (t', some fault) ∧
        (Conflict fault.error → t' = t) := by
  induction names using List.reverseRecOn with
  | nil =>
    refine .inl ⟨t, ?_, made_of_directory hrooted (fun _ hmem => by cases hmem) ?_⟩
    · rw [Path.under_nil]
      exact makeDirectories_existing hbase
    · rw [List.append_nil]
      exact hrooted.root
  | append_singleton names name ih =>
    have hnames : ".." ∉ names := fun hmem => hdots (List.mem_append_left _ hmem)
    have hname : name ≠ ".." := fun heq => hdots (by simp [heq])
    have hne : names ++ [name] ≠ [] := List.concat_ne_nil name names
    have hnew : ¬ names ++ [name] <+: names := fun h => by simpa using h.length_le
    cases hmade : t.makeDirectory cwd (base.under (names ++ [name])) with
    | ok t' =>
      refine .inl ⟨t', makeDirectories_of_made hmade, ?_⟩
      unfold makeDirectory at hmade
      split at hmade
      · next parent last hwalk =>
        cases hmade
        obtain ⟨left, hleft⟩ := walkFrom_of_walk_under hbase hne hwalk nofun
        obtain ⟨hplace, hdir⟩ := hrooted.vacant hdots hleft
        have hwalkable := hrooted.walkable hdots hleft
        have hfree : t.find? (top ++ (names ++ [name])) = none :=
          hplace ▸ walkFrom_ok (walk_ok hwalk)
        rw [← List.append_assoc] at hplace
        obtain ⟨rfl, -⟩ := List.append_inj' hplace rfl
        rw [hplace, List.append_assoc]
        exact (made_of_directory hrooted (fun n hn => hwalkable n (List.mem_append_left _ hn))
          hdir).insert hfree hwalkable
      all_goals cases hmade
    | error e =>
      by_cases he : e = .noEntry
      · subst he
        rw [makeDirectories_of_missing hmade (by simp [Path.under]), Path.under_parent]
        have hfree : t.find? (top ++ (names ++ [name])) = none := by
          obtain ⟨left, hleft⟩ :=
            walkFrom_of_walk_under hbase hne (makeDirectory_missing hmade) fun e he hform => by
              cases he
              simp [FormFault] at hform
          exact hrooted.find?_eq_none hdots hleft
        rcases ih hnames with ⟨t', habove, hdirs⟩ | ⟨t', fault, habove, hfault⟩
        · rw [habove]
          dsimp only
          rw [← hdirs.below hnew] at hfree
          rcases walk_entry (hdirs.rooted hrooted) (hdirs.stat hbase)
            (hdirs.here names List.prefix_rfl) hdirs.walkable hname with
            ⟨e, he, hwalk⟩ | ⟨hwalkable, hwalk⟩
          · rw [makeDirectory, hwalk false]
            obtain ⟨fault, hsettle, hform⟩ := settleMake_form he hwalk
            exact .inr ⟨t', fault, hsettle, fun hconflict => absurd hconflict hform.not_conflict⟩
          · rw [makeDirectory, hwalk false, hfree]
            refine .inl ⟨_, rfl, ?_⟩
            rw [List.append_assoc]
            exact hdirs.insert hfree hwalkable
        · rw [habove]
          exact .inr ⟨t', fault, rfl, hfault⟩
      · rw [makeDirectories_of_refused hmade he]
        rcases settleMake_cases t cwd (base.under (names ++ [name])) e with
          ⟨⟨loc, hstat⟩, hsettle⟩ | ⟨fault, hsettle, -⟩
        · obtain ⟨rfl, hwalkable⟩ := stat_under hrooted hbase hdots hstat
          exact .inl ⟨t, hsettle, made_of_directory hrooted hwalkable (find?_of_stat hstat)⟩
        · exact .inr ⟨t, fault, hsettle, fun _ => rfl⟩

structure Written (t t' : FileTree) (top : Location) (names : List String) (octets : List UInt8) :
    Prop where
  grown : Grown t t'
  here : ∃ x, t'.find? (top ++ names) = some (.file octets x)
  inner : ∀ front, front <+: names → front ≠ names → t'.find? (top ++ front) = some .directory
  elsewhere : ∀ loc, (∀ front, front <+: names → loc ≠ top ++ front) → t'.find? loc = t.find? loc

variable {octets : List UInt8}

theorem Made.write (h : Made t t' top names) {x : Bool}
    (hold : ∀ e, t'.find? (top ++ (names ++ [name])) = some e → ∃ old x, e = .file old x) :
    Written t (t'.insert (top ++ (names ++ [name])) (.file octets x)) top (names ++ [name])
      octets := by
  have hne : top ++ (names ++ [name]) ≠ [] := by simp
  refine ⟨h.added.grown.trans (grown_insert hne trivial ?_), ⟨x, ?_⟩, ?_, ?_⟩
  · intro e he
    obtain ⟨old, x', rfl⟩ := hold e he
    exact .rewritten
  · rw [find?_insert _ hne, if_pos rfl]
  · intro front hfront hother
    rw [find?_insert _ hne, if_neg fun heq => hother (List.append_cancel_left heq)]
    exact h.here front ((List.prefix_concat_iff.mp hfront).resolve_left hother)
  · intro loc hloc
    rw [find?_insert _ hne, if_neg (hloc _ List.prefix_rfl)]
    exact h.elsewhere loc fun front hfront => hloc front (hfront.trans (List.prefix_append ..))

theorem Written.below (h : Written t t' top names octets) {other : List String}
    (hother : ¬ other <+: names) : t'.find? (top ++ other) = t.find? (top ++ other) :=
  h.elsewhere _ fun _ hfront heq => hother (List.append_cancel_left heq ▸ hfront)

theorem Written.rooted (hrooted : Rooted t top) (hne : names ≠ [])
    (h : Written t t' top names octets) : Rooted t' top where
  root := by simpa using h.inner [] List.nil_prefix hne.symm
  plain other e he := by
    by_cases hother : other <+: names
    · by_cases heq : other = names
      · obtain ⟨x, hhere⟩ := h.here
        rw [heq, hhere] at he
        cases he
        trivial
      · cases (h.inner other hother heq).symm.trans he
        trivial
    · exact hrooted.plain other e (h.below hother ▸ he)
  closed other last e he := by
    by_cases hother : other ++ [last] <+: names
    · refine h.inner other ((List.prefix_append ..).trans hother) ?_
      rintro rfl
      simpa using hother.length_le
    · rw [h.below hother] at he
      exact h.grown.directory (hrooted.closed other last e he)

/-- Where there already is something in the last of the directories, none had to be made. -/
theorem Made.unchanged (hrooted : Rooted t top) (h : Made t t' top names) {e : Entry}
    (he : t'.find? (top ++ (names ++ [name])) = some e) (loc : Location) :
    t'.find? loc = t.find? loc := by
  have hnew : ¬ names ++ [name] <+: names := fun h => by simpa using h.length_le
  rw [h.below hnew] at he
  by_cases hloc : ∃ front, front <+: names ∧ loc = top ++ front
  · obtain ⟨front, hfront, rfl⟩ := hloc
    rw [h.here front hfront]
    obtain ⟨more, hmore⟩ := hfront
    rw [← hmore, List.append_assoc] at he
    exact (hrooted.inner (List.concat_ne_nil name more) he).symm
  · exact h.elsewhere loc fun front hfront heq => hloc ⟨front, hfront, heq⟩

/-- A write into a directory that was made for it succeeds, or meets a directory that was there
before, or the form of the path is refused. -/
theorem writeOctets_under (hrooted : Rooted t top) (hbase : stat t cwd base = .ok (top, .directory))
    (hmade : Made t t' top names) (hname : name ≠ "..") :
    (∃ t'', t'.writeOctets cwd (base.under (names ++ [name])) octets = .ok t'' ∧
        Written t t'' top (names ++ [name]) octets ∧ Fits base (names ++ [name])) ∨
      ∃ e, t'.writeOctets cwd (base.under (names ++ [name])) octets = .error e ∧
        (Conflict e → ∀ loc, t'.find? loc = t.find? loc) := by
  rcases walk_entry (hmade.rooted hrooted) (hmade.stat hbase) (hmade.here names List.prefix_rfl)
    hmade.walkable hname with ⟨e, he, hwalk⟩ | ⟨hwalkable, hwalk⟩
  · refine .inr ⟨e, ?_, fun hconflict => absurd hconflict he.not_conflict⟩
    rw [writeOctets, hwalk]
  specialize hwalk true
  have hfits (place : Place)
      (hplace : walk t' cwd true (base.under (names ++ [name])) = .ok place) :
      Fits base (names ++ [name]) :=
    ⟨(form_of_walk hplace).1, (form_of_walk hplace).2, hwalkable⟩
  unfold writeOctets
  cases hfound : t'.find? (top ++ (names ++ [name])) with
  | none =>
    rw [hfound] at hwalk
    rw [hwalk]
    refine .inl ⟨_, rfl, ?_, hfits _ hwalk⟩
    rw [List.append_assoc]
    exact hmade.write fun e he => by cases hfound.symm.trans he
  | some e =>
    rw [hfound] at hwalk
    rw [hwalk]
    cases e with
    | directory => exact .inr ⟨_, rfl, fun _ => hmade.unchanged hrooted hfound⟩
    | file old x =>
      refine .inl ⟨_, rfl, hmade.write fun e he => ?_, hfits _ hwalk⟩
      exact ⟨old, x, Option.some.inj (he.symm.trans hfound)⟩
    | _ => exact absurd hfound fun hfound => (hmade.rooted hrooted).plain _ _ hfound

end Making

end SnippetRunner.FileTree
