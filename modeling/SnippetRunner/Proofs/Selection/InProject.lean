import SnippetRunner.Proofs.Selection.InFile

/-!
Closing a selection within its project when definitions are copied. The chase goes back to
the current file for a name that is defined there, and what was chosen in earlier visits
stays covered: every name that a chosen or copied definition refers to is provided by the
current file, settled or pending. At the end the names that were dealt with are exactly
those that are needed.
-/
namespace SnippetRunner.Selection.ProjectScope

open Source Surrounding

variable {s : ProjectScope} {g : Gathered} {n : String}

theorem mem_names_iff : n ∈ s.names ↔
    s.surrounding.Defines n ∨ ∃ file d, FirstDefinition s.files n file d := by
  simp only [names, List.mem_append, Surrounding.mem_names]
  apply or_congr_right
  simp only [← find?_eq_some_iff]
  constructor
  · intro hmem
    obtain ⟨file, hfile, hname⟩ := List.mem_flatMap.mp hmem
    obtain ⟨d, hd, rfl⟩ := List.mem_map.mp hname
    have hsome : (s.find? d.name).isSome := by
      simp only [find?, List.findSome?_isSome_iff, Option.isSome_map, List.find?_isSome]
      exact ⟨file, hfile, d, hd, by simp⟩
    obtain ⟨⟨file', d'⟩, hfind⟩ := Option.isSome_iff_exists.mp hsome
    exact ⟨file', d', hfind⟩
  · rintro ⟨file, d, hfind⟩
    obtain ⟨f, hf, hfd⟩ := List.exists_of_findSome?_eq_some hfind
    obtain ⟨e, he, -⟩ := Option.map_eq_some_iff.mp hfd
    exact List.mem_flatMap.mpr ⟨f, hf, List.mem_map.mpr
      ⟨e, List.mem_of_find?_eq_some he, by simpa using List.find?_some he⟩⟩

theorem follow_local (h : s.surrounding.Defines n) :
    s.follow g n = ⟨{ g with fileDefinitions := (s.surrounding.close g.fileDefinitions [n]).1 },
      [], (s.surrounding.close g.fileDefinitions [n]).2⟩ := by
  simp [follow, (isLocal_iff s n).mpr h]

theorem follow_found (hinline : s.descriptor.projectLayout = .inline) {file : ProjectFile}
    {d : Definition} (h : FoundInProject s.surrounding s.files n file d) :
    s.follow g n =
      ⟨{ g with
          fragments := g.fragments ++ [Hit.fragment ⟨n, file, d⟩]
          imports := g.imports ++ Hit.imports ⟨n, file, d⟩ },
        [], Surrounding.references s.descriptor.blockStyle n d.text⟩ := by
  have hlocal : s.isLocal n = false := by
    rw [← Bool.not_eq_true, isLocal_iff]
    exact h.1
  have hfind : s.find? n = some (file, d) := (find?_eq_some_iff s n file d).mpr h.2
  simp [follow, hlocal, hfind, hinline, Hit.fragment, Hit.imports]

def Met (c : Chase Gathered) (pending : List String) (n : String) : Prop :=
  Provides c.state.fileDefinitions n ∨ n ∈ c.done ∨ n ∈ pending

/-- What was met stays met when the first pending name is settled, no definition is given
up, and no other name stops being pending. -/
theorem Met.settle {c c' : Chase Gathered} {name : String} {rest pending : List String}
    (hdefs : ∀ d ∈ c.state.fileDefinitions, d ∈ c'.state.fileDefinitions)
    (hdone : ∀ m ∈ name :: c.done, m ∈ c'.done) (hrest : ∀ m ∈ rest, m ∈ pending)
    (h : Met c (name :: rest) n) : Met c' pending n := by
  rcases h with hn | hn | hn
  · exact Or.inl (hn.mono hdefs)
  · exact Or.inr (Or.inl (hdone n (List.mem_cons_of_mem _ hn)))
  · rcases List.mem_cons.mp hn with rfl | hn
    · exact Or.inr (Or.inl (hdone n (List.mem_cons_self ..)))
    · exact Or.inr (Or.inr (hrest n hn))

/-- A name that is settled need not be pending. -/
theorem Met.drop {c : Chase Gathered} {name : String} {rest : List String}
    (hdone : name ∈ c.done) (h : Met c (name :: rest) n) : Met c rest n :=
  h.settle (fun _ hd => hd) (List.forall_mem_cons.mpr ⟨hdone, fun _ hm => hm⟩) fun _ hm => hm

/-- A reference of a followed name is settled or becomes pending. -/
theorem met_fresh {c : Chase Gathered} {name : String} (rest : List String)
    (h : n ∈ (s.follow c.state name).references) :
    Met (c.followed s.follow name) (rest ++ c.fresh s.follow name) n := by
  by_cases hdone : n ∈ (c.followed s.follow name).done
  · exact Or.inr (Or.inl hdone)
  · exact Or.inr (Or.inr (List.mem_append_right _ ((c.mem_fresh s.follow name n).mpr ⟨h, hdone⟩)))

/-- Following a name of the current file closes the choice of definitions there. -/
theorem followed_closing (c : Chase Gathered) {name : String} (h : s.surrounding.Defines name)
    (hpicked : s.surrounding.Picked c.state.fileDefinitions) :
    s.surrounding.Closing c.state.fileDefinitions
        (c.followed s.follow name).state.fileDefinitions [name]
        (s.follow c.state name).references ∧
      (c.followed s.follow name).state.fragments = c.state.fragments ∧
      (c.followed s.follow name).state.imports = c.state.imports ∧
      (c.followed s.follow name).done = name :: c.done := by
  have hclosing := close_closing s.surrounding c.state.fileDefinitions [name] hpicked
  rw [Chase.followed, follow_local h]
  exact ⟨hclosing, rfl, rfl, rfl⟩

/-- How far a chase through the project has come when some names are still pending. The
hits are the names that were found in other files, in the order in which they were met. -/
structure ChaseInvariant (s : ProjectScope) (wants : String → Prop) (own : List Fragment)
    (c : Chase Gathered) (pending : List String) (hits : List Hit) : Prop where
  picked : s.surrounding.Picked c.state.fileDefinitions
  fragments : c.state.fragments = hits.map Hit.fragment
  imports : c.state.imports = own ++ hits.flatMap Hit.imports
  hits_found : ∀ h ∈ hits,
    FoundInProject s.surrounding s.files h.name h.file h.definition ∧ h.name ∈ c.done
  hits_once : (hits.map (·.name)).Nodup
  wanted_met : ∀ n, wants n → Met c pending n
  file_met : ∀ d ∈ c.state.fileDefinitions,
    ∀ m ∈ Surrounding.references s.surrounding.style d.name d.text, Met c pending m
  hits_met : ∀ h ∈ hits,
    ∀ m ∈ Surrounding.references s.surrounding.style h.name h.definition.text, Met c pending m
  provided : ∀ n ∈ c.done, s.surrounding.Defines n → Provides c.state.fileDefinitions n
  found : ∀ n ∈ c.done, ∀ file d, FoundInProject s.surrounding s.files n file d →
    n ∈ hits.map (·.name)
  recorded : ∀ n ∈ c.done, Unresolved s.surrounding s.files n → n ∈ c.missing
  unresolved : ∀ n ∈ c.missing, Unresolved s.surrounding s.files n ∧ n ∈ c.done
  once : c.missing.Nodup
  needed : ∀ n, Provides c.state.fileDefinitions n ∨ n ∈ hits.map (·.name) ∨
    n ∈ c.missing ∨ n ∈ pending → Needed s.surrounding s.files wants n

namespace ChaseInvariant

variable {wants : String → Prop} {own : List Fragment} {c : Chase Gathered} {name : String}
  {rest : List String} {hits : List Hit}

theorem dropped (hdone : name ∈ c.done)
    (h : s.ChaseInvariant wants own c (name :: rest) hits) :
    s.ChaseInvariant wants own c rest hits := by
  have hmet : ∀ n, Met c (name :: rest) n → Met c rest n := fun n hn => hn.drop hdone
  exact { h with
    wanted_met := fun n hn => hmet n (h.wanted_met n hn)
    file_met := fun d hd m hm => hmet m (h.file_met d hd m hm)
    hits_met := fun k hk m hm => hmet m (h.hits_met k hk m hm)
    needed := fun n hn => h.needed n
      (hn.imp_right (Or.imp_right (Or.imp_right (List.mem_cons_of_mem _)))) }

theorem missed (hdone : name ∉ c.done) (hname : Unresolved s.surrounding s.files name)
    (h : s.ChaseInvariant wants own c (name :: rest) hits) :
    s.ChaseInvariant wants own (c.missed name) rest hits := by
  have hmet : ∀ n, Met c (name :: rest) n → Met (c.missed name) rest n := by
    intro n hn
    refine hn.settle ?_ ?_ fun _ hm => hm
    · exact fun _ hd => hd
    · exact fun _ hm => hm
  have hundefined : ¬ s.surrounding.Defines name := by
    intro hdef
    obtain ⟨d, hd⟩ := hdef.denotes
    exact hname.1 d hd
  refine {
    picked := h.picked
    fragments := h.fragments
    imports := h.imports
    hits_found := fun k hk => ⟨(h.hits_found k hk).1, List.mem_cons_of_mem _ (h.hits_found k hk).2⟩
    hits_once := h.hits_once
    wanted_met := fun n hn => hmet n (h.wanted_met n hn)
    file_met := fun d hd m hm => hmet m (h.file_met d hd m hm)
    hits_met := fun k hk m hm => hmet m (h.hits_met k hk m hm)
    provided := ?_
    found := ?_
    recorded := ?_
    unresolved := ?_
    once := List.nodup_cons.mpr ⟨fun hmem => hdone (h.unresolved name hmem).2, h.once⟩
    needed := ?_ }
  · intro n hn hdef
    rcases List.mem_cons.mp hn with rfl | hn
    · exact absurd hdef hundefined
    · exact h.provided n hn hdef
  · intro n hn file d hfound
    rcases List.mem_cons.mp hn with rfl | hn
    · exact absurd hfound (hname.2 file d)
    · exact h.found n hn file d hfound
  · intro n hn hunresolved
    rcases List.mem_cons.mp hn with rfl | hn
    · exact List.mem_cons_self ..
    · exact List.mem_cons_of_mem _ (h.recorded n hn hunresolved)
  · intro n hn
    rcases List.mem_cons.mp hn with rfl | hn
    · exact ⟨hname, List.mem_cons_self ..⟩
    · exact ⟨(h.unresolved n hn).1, List.mem_cons_of_mem _ (h.unresolved n hn).2⟩
  · intro n hn
    apply h.needed n
    rcases hn with hn | hn | hn | hn
    · exact Or.inl hn
    · exact Or.inr (Or.inl hn)
    · rcases List.mem_cons.mp hn with rfl | hn
      · exact Or.inr (Or.inr (Or.inr (List.mem_cons_self ..)))
      · exact Or.inr (Or.inr (Or.inl hn))
    · exact Or.inr (Or.inr (Or.inr (List.mem_cons_of_mem _ hn)))

/-- A name of the current file: its definition is chosen with all that it needs there, and
what is missing in the file becomes pending. -/
theorem followed_local (hname : s.surrounding.Defines name)
    (h : s.ChaseInvariant wants own c (name :: rest) hits) :
    s.ChaseInvariant wants own (c.followed s.follow name) (rest ++ c.fresh s.follow name) hits := by
  obtain ⟨hclosing, hfragments, himports, hdone⟩ := followed_closing c hname h.picked
  have hmissing : (c.followed s.follow name).missing = c.missing := rfl
  have hmet : ∀ n, Met c (name :: rest) n →
      Met (c.followed s.follow name) (rest ++ c.fresh s.follow name) n := fun n hn =>
    hn.settle hclosing.kept (fun _ hm => hdone ▸ hm) fun _ hm => List.mem_append_left _ hm
  have hprovides : Provides (c.followed s.follow name).state.fileDefinitions name := by
    rcases hclosing.served name (by simp) with hp | hm
    · exact hp
    · exact absurd hname (hclosing.undefined name hm)
  have hneeded : Needed s.surrounding s.files wants name :=
    h.needed name (Or.inr (Or.inr (Or.inr (List.mem_cons_self ..))))
  obtain ⟨hsound, hsound_missing⟩ := hclosing.sound (Needed s.surrounding s.files wants)
    (by simpa using hneeded) fun n d m hn hd hm =>
      hn.inFile hd ((mem_references ..).mp hm).1 ((mem_references ..).mp hm).2
  refine {
    picked := hclosing.picked
    fragments := hfragments.trans h.fragments
    imports := himports.trans h.imports
    hits_found := ?_
    hits_once := h.hits_once
    wanted_met := fun n hn => hmet n (h.wanted_met n hn)
    file_met := ?_
    hits_met := fun k hk m hm => hmet m (h.hits_met k hk m hm)
    provided := ?_
    found := ?_
    recorded := ?_
    unresolved := ?_
    once := hmissing ▸ h.once
    needed := ?_ }
  · intro k hk
    exact ⟨(h.hits_found k hk).1, hdone ▸ List.mem_cons_of_mem _ (h.hits_found k hk).2⟩
  · intro d hd m hm
    by_cases hold : d ∈ c.state.fileDefinitions
    · exact hmet m (h.file_met d hold m hm)
    · rcases hclosing.covered d hd hold m hm with hp | hm
      · exact Or.inl hp
      · exact met_fresh rest hm
  · intro n hn hdef
    rcases List.mem_cons.mp (hdone ▸ hn) with rfl | hn
    · exact hprovides
    · exact (h.provided n hn hdef).mono hclosing.kept
  · intro n hn file d hfound
    rcases List.mem_cons.mp (hdone ▸ hn) with rfl | hn
    · exact absurd hname hfound.1
    · exact h.found n hn file d hfound
  · intro n hn hunresolved
    rcases List.mem_cons.mp (hdone ▸ hn) with rfl | hn
    · obtain ⟨d, hd⟩ := hname.denotes
      exact absurd hd (hunresolved.1 d)
    · exact h.recorded n hn hunresolved
  · intro n hn
    exact ⟨(h.unresolved n hn).1, hdone ▸ List.mem_cons_of_mem _ (h.unresolved n hn).2⟩
  · intro n hn
    rcases hn with hn | hn | hn | hn
    · obtain ⟨d, hd, rfl⟩ := hn
      by_cases hold : d ∈ c.state.fileDefinitions
      · exact h.needed d.name (Or.inl ⟨d, hold, rfl⟩)
      · exact hsound d hd hold
    · exact h.needed n (Or.inr (Or.inl hn))
    · exact h.needed n (Or.inr (Or.inr (Or.inl hn)))
    · rcases List.mem_append.mp hn with hn | hn
      · exact h.needed n (Or.inr (Or.inr (Or.inr (List.mem_cons_of_mem _ hn))))
      · exact hsound_missing n ((c.mem_fresh s.follow name n).mp hn).1

/-- A name of another file: its definition is copied with the imports of that file, and the
names it refers to become pending. -/
theorem followed_found (hinline : s.descriptor.projectLayout = .inline)
    (hstyle : s.surrounding.style = s.descriptor.blockStyle) (hnew : name ∉ c.done)
    {file : ProjectFile} {d : Definition}
    (hfound : FoundInProject s.surrounding s.files name file d)
    (h : s.ChaseInvariant wants own c (name :: rest) hits) :
    s.ChaseInvariant wants own (c.followed s.follow name) (rest ++ c.fresh s.follow name)
      (hits ++ [⟨name, file, d⟩]) := by
  have hfollow := follow_found (g := c.state) hinline hfound
  rw [← hstyle] at hfollow
  have hdone : (c.followed s.follow name).done = name :: c.done := by
    simp [Chase.followed, hfollow]
  have hmissing : (c.followed s.follow name).missing = c.missing := rfl
  have hdefs : (c.followed s.follow name).state.fileDefinitions = c.state.fileDefinitions := by
    simp [Chase.followed, hfollow]
  have hmet : ∀ n, Met c (name :: rest) n →
      Met (c.followed s.follow name) (rest ++ c.fresh s.follow name) n := fun n hn =>
    hn.settle (fun d hd => hdefs ▸ hd) (fun _ hm => hdone ▸ hm) fun _ hm =>
      List.mem_append_left _ hm
  have hneeded : Needed s.surrounding s.files wants name :=
    h.needed name (Or.inr (Or.inr (Or.inr (List.mem_cons_self ..))))
  refine {
    picked := hdefs ▸ h.picked
    fragments := ?_
    imports := ?_
    hits_found := ?_
    hits_once := ?_
    wanted_met := fun n hn => hmet n (h.wanted_met n hn)
    file_met := fun e he m hm => hmet m (h.file_met e (hdefs ▸ he) m hm)
    hits_met := ?_
    provided := ?_
    found := ?_
    recorded := ?_
    unresolved := ?_
    once := hmissing ▸ h.once
    needed := ?_ }
  · simp [Chase.followed, hfollow, h.fragments]
  · simp [Chase.followed, hfollow, h.imports]
  · intro k hk
    rcases List.mem_append.mp hk with hk | hk
    · exact ⟨(h.hits_found k hk).1, hdone ▸ List.mem_cons_of_mem _ (h.hits_found k hk).2⟩
    · rw [List.mem_singleton.mp hk]
      exact ⟨hfound, hdone ▸ List.mem_cons_self ..⟩
  · rw [List.map_append, List.nodup_append]
    refine ⟨h.hits_once, by simp, ?_⟩
    intro a ha b hb hab
    obtain ⟨k, hk, rfl⟩ := List.mem_map.mp ha
    have hb' : b = name := by simpa using hb
    exact hnew (hb' ▸ hab ▸ (h.hits_found k hk).2)
  · intro k hk m hm
    rcases List.mem_append.mp hk with hk | hk
    · exact hmet m (h.hits_met k hk m hm)
    · rw [List.mem_singleton.mp hk] at hm
      exact met_fresh rest (by rw [hfollow]; exact hm)
  · intro n hn hdef
    rw [hdefs]
    rcases List.mem_cons.mp (hdone ▸ hn) with rfl | hn
    · exact absurd hdef hfound.1
    · exact h.provided n hn hdef
  · intro n hn file' d' hfound'
    rw [List.map_append, List.mem_append]
    rcases List.mem_cons.mp (hdone ▸ hn) with rfl | hn
    · exact Or.inr (by simp)
    · exact Or.inl (h.found n hn file' d' hfound')
  · intro n hn hunresolved
    rcases List.mem_cons.mp (hdone ▸ hn) with rfl | hn
    · exact absurd hfound (hunresolved.2 file d)
    · exact h.recorded n hn hunresolved
  · intro n hn
    exact ⟨(h.unresolved n hn).1, hdone ▸ List.mem_cons_of_mem _ (h.unresolved n hn).2⟩
  · intro n hn
    rw [hdefs] at hn
    rcases hn with hn | hn | hn | hn
    · exact h.needed n (Or.inl hn)
    · rw [List.map_append, List.mem_append] at hn
      rcases hn with hn | hn
      · exact h.needed n (Or.inr (Or.inl hn))
      · have hn' : n = name := by simpa using hn
        exact hn' ▸ hneeded
    · exact h.needed n (Or.inr (Or.inr (Or.inl hn)))
    · rcases List.mem_append.mp hn with hn | hn
      · exact h.needed n (Or.inr (Or.inr (Or.inr (List.mem_cons_of_mem _ hn))))
      · have hreference := ((c.mem_fresh s.follow name n).mp hn).1
        rw [hfollow] at hreference
        have hm := (mem_references ..).mp hreference
        exact hneeded.inProject hfound hm.1 hm.2

end ChaseInvariant

/-- The definitions chosen, the hits copied and the names missed are exactly those of the
needed names, each name once. -/
structure Exact (around : Surrounding) (files : List Loaded) (wants : String → Prop)
    (chosen : List Definition) (hits : List Hit) (missing : List String) : Prop where
  chosen_once : (chosen.map (·.name)).Nodup
  chosen_iff : ∀ d, d ∈ chosen ↔ Needed around files wants d.name ∧ around.Denotes d.name d
  hits_once : (hits.map (·.name)).Nodup
  hits_iff : ∀ h, h ∈ hits ↔
    Needed around files wants h.name ∧ FoundInProject around files h.name h.file h.definition
  missing_once : missing.Nodup
  missing_iff : ∀ n, n ∈ missing ↔ Needed around files wants n ∧ Unresolved around files n

/-- In which order definitions and misses are listed does not matter. -/
theorem Exact.reorder {around : Surrounding} {files : List Loaded} {wants : String → Prop}
    {chosen chosen' : List Definition} {hits : List Hit} {missing missing' : List String}
    (h : Exact around files wants chosen hits missing) (hchosen : chosen'.Perm chosen)
    (hmissing : missing'.Perm missing) : Exact around files wants chosen' hits missing' where
  chosen_once := (hchosen.map _).nodup_iff.mpr h.chosen_once
  chosen_iff := fun d => hchosen.mem_iff.trans (h.chosen_iff d)
  hits_once := h.hits_once
  hits_iff := h.hits_iff
  missing_once := hmissing.nodup_iff.mpr h.missing_once
  missing_iff := fun n => hmissing.mem_iff.trans (h.missing_iff n)

theorem ChaseInvariant.exact {wants : String → Prop} {own : List Fragment}
    {c : Chase Gathered} {hits : List Hit} (h : s.ChaseInvariant wants own c [] hits) :
    Exact s.surrounding s.files wants c.state.fileDefinitions hits c.missing := by
  have hmet : ∀ m, Met c [] m → Provides c.state.fileDefinitions m ∨ m ∈ c.done := by
    intro m hm
    simpa [Met] using hm
  have hdealt : ∀ m, Needed s.surrounding s.files wants m →
      Provides c.state.fileDefinitions m ∨ m ∈ c.done := by
    intro m hm
    induction hm with
    | wanted hw => exact hmet _ (h.wanted_met _ hw)
    | @inFile n m d _ hd hm hne ih =>
      have hp : Provides c.state.fileDefinitions n :=
        ih.elim id fun hdone => h.provided n hdone hd.defines
      have hmem : d ∈ c.state.fileDefinitions := (h.picked.mem_iff hd).mpr hp
      apply hmet m (h.file_met d hmem m _)
      rw [hd.name_eq]
      exact (mem_references ..).mpr ⟨hm, hne⟩
    | @inProject n m file d _ hfound hm hne ih =>
      have hdone : n ∈ c.done := ih.resolve_left fun hp => hfound.1 (h.picked.defines hp)
      obtain ⟨k, hk, rfl⟩ := List.mem_map.mp (h.found n hdone file d hfound)
      have hd := ((h.hits_found k hk).1.unique hfound).2
      apply hmet m (h.hits_met k hk m _)
      rw [hd]
      exact (mem_references ..).mpr ⟨hm, hne⟩
  constructor
  · exact h.picked.names_nodup
  · intro d
    constructor
    · intro hd
      exact ⟨h.needed d.name (Or.inl ⟨d, hd, rfl⟩), h.picked.denotes d hd⟩
    · rintro ⟨hn, hd⟩
      apply (h.picked.mem_iff hd).mpr
      exact (hdealt d.name hn).elim id fun hdone => h.provided d.name hdone hd.defines
  · exact h.hits_once
  · intro k
    constructor
    · intro hk
      exact ⟨h.needed k.name (Or.inr (Or.inl (List.mem_map_of_mem hk))), (h.hits_found k hk).1⟩
    · rintro ⟨hn, hfound⟩
      have hdone : k.name ∈ c.done :=
        (hdealt k.name hn).resolve_left fun hp => hfound.1 (h.picked.defines hp)
      obtain ⟨k', hk', hname⟩ := List.mem_map.mp (h.found k.name hdone _ _ hfound)
      have hfound' := (h.hits_found k' hk').1
      rw [hname] at hfound'
      obtain ⟨hfile, hd⟩ := hfound'.unique hfound
      have heq : k' = k := by
        cases k
        cases k'
        simp_all
      exact heq ▸ hk'
  · exact h.once
  · intro n
    constructor
    · intro hn
      exact ⟨h.needed n (Or.inr (Or.inr (Or.inl hn))), (h.unresolved n hn).1⟩
    · rintro ⟨hn, hunresolved⟩
      have hdone : n ∈ c.done := by
        apply (hdealt n hn).resolve_left
        rintro ⟨d, hd, rfl⟩
        exact hunresolved.1 d (h.picked.denotes d hd)
      exact h.recorded n hdone hunresolved

section Start

variable {wants : String → Prop} {wanted : List String}

/-- Closing within the file alone is exact when no project is searched. -/
theorem exact_of_closing {around : Surrounding} {chosen : List Definition}
    {missing : List String} (hwants : ∀ n, wants n ↔ n ∈ wanted)
    (h : around.Closing [] chosen wanted missing) :
    Exact around [] wants chosen [] missing := by
  have hnowhere : ∀ n file d, ¬ FoundInProject around [] n file d := fun n file d hfound =>
    not_firstDefinition_nil hfound.2
  have hdealt : ∀ m, Needed around [] wants m → Provides chosen m ∨ m ∈ missing := by
    intro m hm
    induction hm with
    | wanted hw => exact h.served _ ((hwants _).mp hw)
    | @inFile n m d _ hd hm hne ih =>
      have hp : Provides chosen n := ih.resolve_right fun hmiss => h.undefined n hmiss hd.defines
      have hmem : d ∈ chosen := (h.picked.mem_iff hd).mpr hp
      apply h.covered d hmem (by simp) m
      rw [hd.name_eq]
      exact (mem_references ..).mpr ⟨hm, hne⟩
    | inProject _ hfound _ _ _ => exact absurd hfound (hnowhere _ _ _)
  obtain ⟨hsound, hsound_missing⟩ := h.sound (Needed around [] wants)
    (fun n hn => .wanted ((hwants n).mpr hn)) fun n d m hn hd hm =>
      hn.inFile hd ((mem_references ..).mp hm).1 ((mem_references ..).mp hm).2
  constructor
  · exact h.picked.names_nodup
  · intro d
    constructor
    · intro hd
      exact ⟨hsound d hd (by simp), h.picked.denotes d hd⟩
    · rintro ⟨hn, hd⟩
      apply (h.picked.mem_iff hd).mpr
      exact (hdealt d.name hn).resolve_right fun hmiss => h.undefined _ hmiss hd.defines
  · exact List.nodup_nil
  · intro k
    constructor
    · intro hk
      simp at hk
    · rintro ⟨-, hfound⟩
      exact absurd hfound (hnowhere _ _ _)
  · exact h.once
  · intro n
    constructor
    · intro hn
      refine ⟨hsound_missing n hn, ?_, hnowhere n⟩
      exact fun d hd => h.undefined n hn hd.defines
    · rintro ⟨hn, hunresolved⟩
      apply (hdealt n hn).resolve_left
      rintro ⟨d, hd, rfl⟩
      exact hunresolved.1 d (h.picked.denotes d hd)

/-- The chase through the project starts from what closing within the file has left. -/
theorem ChaseInvariant.start {chosen : List Definition} {missing : List String}
    (own : List Fragment) (hwants : ∀ n, wants n ↔ n ∈ wanted)
    (h : s.surrounding.Closing [] chosen wanted missing) :
    s.ChaseInvariant wants own (.start ⟨chosen, [], own⟩) (sortNames missing) [] := by
  have hmet : ∀ m, Provides chosen m ∨ m ∈ missing →
      Met (.start ⟨chosen, [], own⟩) (sortNames missing) m := by
    intro m hm
    exact hm.imp_right fun hm => Or.inr ((NameOrder.mem_sortNames missing m).mpr hm)
  obtain ⟨hsound, hsound_missing⟩ := h.sound (Needed s.surrounding s.files wants)
    (fun n hn => .wanted ((hwants n).mpr hn)) fun n d m hn hd hm =>
      hn.inFile hd ((mem_references ..).mp hm).1 ((mem_references ..).mp hm).2
  refine {
    picked := h.picked
    fragments := rfl
    imports := by simp [Chase.start]
    hits_found := by simp
    hits_once := List.nodup_nil
    wanted_met := fun n hn => hmet n (h.served n ((hwants n).mp hn))
    file_met := fun d hd m hm => hmet m (h.covered d hd (by simp) m hm)
    hits_met := by simp
    provided := by simp [Chase.start]
    found := by simp [Chase.start]
    recorded := by simp [Chase.start]
    unresolved := by simp [Chase.start]
    once := List.nodup_nil
    needed := ?_ }
  intro n hn
  rcases hn with hn | hn | hn | hn
  · obtain ⟨d, hd, rfl⟩ := hn
    exact hsound d hd (by simp)
  · simp at hn
  · simp [Chase.start] at hn
  · exact hsound_missing n ((NameOrder.mem_sortNames missing n).mp hn)

/-- Closing within the project is exact when definitions are copied. -/
theorem close_exact (hinline : s.descriptor.projectLayout = .inline)
    (hstyle : s.surrounding.style = s.descriptor.blockStyle) {chosen : List Definition}
    {missing : List String} (own : List Fragment) (hwants : ∀ n, wants n ↔ n ∈ wanted)
    (h : s.surrounding.Closing [] chosen wanted missing) :
    ∃ hits, Exact s.surrounding s.files wants
        (s.close ⟨chosen, [], own⟩ missing).1.fileDefinitions hits
        (s.close ⟨chosen, [], own⟩ missing).2.1 ∧
      (s.close ⟨chosen, [], own⟩ missing).1.fragments.Perm (hits.map Hit.fragment) ∧
      (s.close ⟨chosen, [], own⟩ missing).1.imports = own ++ hits.flatMap Hit.imports := by
  have hrun : ∃ hits, s.ChaseInvariant wants own
      (Chase.run s.names s.follow (.start ⟨chosen, [], own⟩) (sortNames missing)) [] hits := by
    apply Chase.run_invariant fun c pending => ∃ hits, s.ChaseInvariant wants own c pending hits
    · rintro c name rest hdone ⟨hits, hinv⟩
      exact ⟨hits, hinv.dropped hdone⟩
    · rintro c name rest hnew hknown ⟨hits, hinv⟩
      by_cases hlocal : s.surrounding.Defines name
      · exact ⟨hits, hinv.followed_local hlocal⟩
      · obtain ⟨file, d, hfirst⟩ := (mem_names_iff.mp hknown).resolve_left hlocal
        exact ⟨_, hinv.followed_found hinline hstyle hnew ⟨hlocal, hfirst⟩⟩
    · rintro c name rest hnew hunknown ⟨hits, hinv⟩
      refine ⟨hits, hinv.missed hnew ⟨?_, ?_⟩⟩
      · exact fun d hd => hunknown (mem_names_iff.mpr (Or.inl hd.defines))
      · exact fun file d hfound => hunknown (mem_names_iff.mpr (Or.inr ⟨file, d, hfound.2⟩))
    · exact ⟨[], ChaseInvariant.start own hwants h⟩
  obtain ⟨hits, hinv⟩ := hrun
  refine ⟨hits, hinv.exact, ?_, hinv.imports⟩
  rw [← hinv.fragments]
  exact List.mergeSort_perm ..

end Start

end SnippetRunner.Selection.ProjectScope
