import SnippetRunner.Proofs.FileTree.Trails
import SnippetRunner.Proofs.Selection.Mirrored

/-!
Names when a project is mirrored. Keeping a file settles all the names it defines before they
are looked for, so a settled name is one that a chosen definition or a file that is kept stands
for, or a missed one. Each name that the selection, a chosen definition or a file that is kept
uses is settled in the end. A file that can be reached by several paths is kept by one of them.
-/
namespace SnippetRunner.Selection

open Source Surrounding

def DefinedIn (files : List ProjectFile) (n : String) : Prop :=
  ∃ file ∈ files, ∃ e ∈ file.definitions, e.name = n

def StandsFor (chosen : List Definition) (kept : List ProjectFile) (n : String) : Prop :=
  Provides chosen n ∨ DefinedIn kept n

/-- Every name that the selection, a chosen definition or a file that is kept uses is one that
a chosen definition or a file that is kept stands for, or a missed one, and never both. -/
structure Accounts (style : BlockStyle) (wants : String → Prop) (chosen : List Definition)
    (kept : List ProjectFile) (missing : List String) : Prop where
  selection : ∀ n, wants n → StandsFor chosen kept n ∨ n ∈ missing
  inFile : ∀ d ∈ chosen, ∀ n ∈ identifiers style d.text, StandsFor chosen kept n ∨ n ∈ missing
  inProject : ∀ file ∈ kept, ∀ n ∈ identifiers style file.source.text,
    StandsFor chosen kept n ∨ n ∈ missing
  missed : ∀ n ∈ missing, ¬ StandsFor chosen kept n

theorem DefinedIn.mono {files more : List ProjectFile} {n : String}
    (hsub : ∀ file ∈ files, file ∈ more) (h : DefinedIn files n) : DefinedIn more n := by
  obtain ⟨file, hfile, hn⟩ := h
  exact ⟨file, hsub file hfile, hn⟩

theorem StandsFor.mono {chosen chosen' : List Definition} {kept kept' : List ProjectFile}
    {n : String} (hchosen : ∀ d ∈ chosen, d ∈ chosen') (hkept : ∀ file ∈ kept, file ∈ kept')
    (h : StandsFor chosen kept n) : StandsFor chosen' kept' n :=
  h.imp (·.mono hchosen) (·.mono hkept)

theorem Accounts.reorder {style : BlockStyle} {wants : String → Prop}
    {chosen chosen' : List Definition} {kept : List ProjectFile} {missing missing' : List String}
    (hchosen : chosen'.Perm chosen) (hmissing : ∀ n, n ∈ missing' ↔ n ∈ missing)
    (h : Accounts style wants chosen kept missing) :
    Accounts style wants chosen' kept missing' := by
  have hstands : ∀ n, StandsFor chosen' kept n ↔ StandsFor chosen kept n := by
    intro n
    constructor
    · exact (·.mono (fun _ hd => hchosen.mem_iff.mp hd) fun _ hfile => hfile)
    · exact (·.mono (fun _ hd => hchosen.mem_iff.mpr hd) fun _ hfile => hfile)
  constructor <;> simp only [hstands, hchosen.mem_iff, hmissing]
  · exact h.selection
  · exact h.inFile
  · exact h.inProject
  · exact h.missed

theorem FirstDefinition.defines {files : List Loaded} {n : String} {file : ProjectFile}
    {d : Definition} (h : FirstDefinition files n file d) :
    ∃ e ∈ file.definitions, e.name = n := by
  obtain ⟨-, -, -, -, -, hd⟩ := h
  exact ⟨d, List.mem_of_find?_eq_some hd, by simpa using List.find?_some hd⟩

/-- Of files with the same definitions only one can be the first to define something. -/
theorem FirstDefinition.eq_of_definitions {files : List Loaded} {n n' : String}
    {file file' : ProjectFile} {d d' : Definition} (h : FirstDefinition files n file d)
    (h' : FirstDefinition files n' file' d') (hsame : file.definitions = file'.definitions) :
    file = file' := by
  have hdefines := h.defines
  have hdefines' := h'.defines
  induction files with
  | nil => exact absurd h not_firstDefinition_nil
  | cons f rest ih =>
    obtain ⟨path, content⟩ := f
    cases content with
    | error e => exact ih (firstDefinition_error.mp h) (firstDefinition_error.mp h')
    | ok g =>
      rcases firstDefinition_ok.mp h with ⟨rfl, -⟩ | ⟨hg, hrest⟩ <;>
        rcases firstDefinition_ok.mp h' with ⟨rfl, -⟩ | ⟨hg', hrest'⟩
      · rfl
      · obtain ⟨e, he, hn⟩ := hdefines'
        exact absurd hn (hg' e (hsame ▸ he))
      · obtain ⟨e, he, hn⟩ := hdefines
        exact absurd hn (hg e (hsame ▸ he))
      · exact ih hrest hrest'

namespace ProjectScope

variable {s : ProjectScope} {g : Gathered} {n : String}

theorem mem_readable_of_first {file : ProjectFile} {d : Definition}
    (h : FirstDefinition s.files n file d) : file ∈ s.readable := by
  obtain ⟨before, path, after, hfiles, -⟩ := h
  simp [readable, hfiles]

/-- Following a name of another file keeps the whole of it, unless it is kept already. -/
theorem follow_mirrored (hmirror : s.descriptor.projectLayout = .mirrored) {file : ProjectFile}
    {d : Definition} (h : FoundInProject s.surrounding s.files n file d) :
    s.follow g n =
      if g.fragments.any fun f => f.origin == file.source.path then ⟨g, [], []⟩
      else
        ⟨{ g with fragments := g.fragments ++ [s.wholeFile file.source] },
          file.definitions.map (·.name),
          identifiers s.descriptor.blockStyle file.source.text⟩ := by
  have hlocal : s.isLocal n = false := by
    rw [← Bool.not_eq_true, isLocal_iff]
    exact h.1
  have hfind : s.find? n = some (file, d) := (find?_eq_some_iff s n file d).mpr h.2
  simp [follow, hlocal, hfind, hmirror]

structure MirrorInvariant (s : ProjectScope) (wants : String → Prop) (c : Chase Gathered)
    (pending : List String) (kept : List ProjectFile) : Prop where
  picked : s.surrounding.Picked c.state.fileDefinitions
  fragments : c.state.fragments = kept.map fun file => s.wholeFile file.source
  first : ∀ file ∈ kept, ∃ n d, FirstDefinition s.files n file d
  wanted_met : ∀ n, wants n → Met c pending n
  file_met : ∀ d ∈ c.state.fileDefinitions,
    ∀ m ∈ references s.surrounding.style d.name d.text, Met c pending m
  kept_met : ∀ file ∈ kept, ∀ m ∈ identifiers s.descriptor.blockStyle file.source.text,
    Met c pending m
  settled : ∀ n ∈ c.done, StandsFor c.state.fileDefinitions kept n ∨ n ∈ c.missing
  unresolved : ∀ n ∈ c.missing, Unresolved s.surrounding s.files n

namespace MirrorInvariant

variable {wants : String → Prop} {c : Chase Gathered} {name : String} {rest : List String}
  {kept : List ProjectFile}

theorem dropped (hdone : name ∈ c.done) (h : s.MirrorInvariant wants c (name :: rest) kept) :
    s.MirrorInvariant wants c rest kept :=
  { h with
    wanted_met := fun n hn => (h.wanted_met n hn).drop hdone
    file_met := fun d hd m hm => (h.file_met d hd m hm).drop hdone
    kept_met := fun file hfile m hm => (h.kept_met file hfile m hm).drop hdone }

theorem missed (hname : Unresolved s.surrounding s.files name)
    (h : s.MirrorInvariant wants c (name :: rest) kept) :
    s.MirrorInvariant wants (c.missed name) rest kept := by
  have hmet : ∀ n, Met c (name :: rest) n → Met (c.missed name) rest n := by
    intro n hn
    refine hn.settle ?_ ?_ fun _ hm => hm
    · exact fun _ hd => hd
    · exact fun _ hm => hm
  refine { h with
    wanted_met := fun n hn => hmet n (h.wanted_met n hn)
    file_met := fun d hd m hm => hmet m (h.file_met d hd m hm)
    kept_met := fun file hfile m hm => hmet m (h.kept_met file hfile m hm)
    settled := ?_
    unresolved := ?_ }
  · intro n hn
    rcases List.mem_cons.mp hn with rfl | hn
    · exact Or.inr (List.mem_cons_self ..)
    · exact (h.settled n hn).imp_right (List.mem_cons_of_mem _)
  · intro n hn
    rcases List.mem_cons.mp hn with rfl | hn
    · exact hname
    · exact h.unresolved n hn

theorem followed_local (hname : s.surrounding.Defines name)
    (h : s.MirrorInvariant wants c (name :: rest) kept) :
    s.MirrorInvariant wants (c.followed s.follow name) (rest ++ c.fresh s.follow name) kept := by
  obtain ⟨hclosing, hfragments, -, hdone⟩ := followed_closing c hname h.picked
  have hmet : ∀ n, Met c (name :: rest) n →
      Met (c.followed s.follow name) (rest ++ c.fresh s.follow name) n := fun n hn =>
    hn.settle hclosing.kept (fun _ hm => hdone ▸ hm) fun _ hm => List.mem_append_left _ hm
  refine {
    picked := hclosing.picked
    fragments := hfragments.trans h.fragments
    first := h.first
    wanted_met := fun n hn => hmet n (h.wanted_met n hn)
    file_met := ?_
    kept_met := fun file hfile m hm => hmet m (h.kept_met file hfile m hm)
    settled := ?_
    unresolved := h.unresolved }
  · intro d hd m hm
    by_cases hold : d ∈ c.state.fileDefinitions
    · exact hmet m (h.file_met d hold m hm)
    · rcases hclosing.covered d hd hold m hm with hp | hm
      · exact Or.inl hp
      · exact met_fresh rest hm
  · intro n hn
    rcases List.mem_cons.mp (hdone ▸ hn) with rfl | hn
    · have hp := (hclosing.served n (by simp)).resolve_right fun hm =>
        hclosing.undefined n hm hname
      exact Or.inl (Or.inl hp)
    · exact (h.settled n hn).imp_left (·.mono hclosing.kept fun _ hfile => hfile)

/-- A name of a file that is kept already only settles itself. -/
theorem followed_kept {file : ProjectFile} (hfile : file ∈ kept) {e : Definition}
    (he : e ∈ file.definitions) (hname : e.name = name)
    (hfollow : s.follow c.state name = ⟨c.state, [], []⟩)
    (h : s.MirrorInvariant wants c (name :: rest) kept) :
    s.MirrorInvariant wants (c.followed s.follow name) (rest ++ c.fresh s.follow name) kept := by
  have hstate : (c.followed s.follow name).state = c.state := by rw [Chase.followed, hfollow]
  have hdone : (c.followed s.follow name).done = name :: c.done := by
    rw [Chase.followed, hfollow]
    rfl
  have hmet : ∀ n, Met c (name :: rest) n →
      Met (c.followed s.follow name) (rest ++ c.fresh s.follow name) n := fun n hn =>
    hn.settle (fun d hd => hstate ▸ hd) (fun _ hm => hdone ▸ hm) fun _ hm =>
      List.mem_append_left _ hm
  refine {
    picked := hstate ▸ h.picked
    fragments := hstate ▸ h.fragments
    first := h.first
    wanted_met := fun n hn => hmet n (h.wanted_met n hn)
    file_met := fun d hd m hm => hmet m (h.file_met d (hstate ▸ hd) m hm)
    kept_met := fun file hfile m hm => hmet m (h.kept_met file hfile m hm)
    settled := ?_
    unresolved := h.unresolved }
  intro n hn
  rw [hstate]
  rcases List.mem_cons.mp (hdone ▸ hn) with rfl | hn
  · exact Or.inl (Or.inr ⟨file, hfile, e, he, hname⟩)
  · exact h.settled n hn

/-- A name of a further file: the file is kept, which settles all the names it defines, and
those that its text uses become pending. -/
theorem followed_new {file : ProjectFile} {d : Definition}
    (hfound : FoundInProject s.surrounding s.files name file d)
    (hfollow : s.follow c.state name =
      ⟨{ c.state with fragments := c.state.fragments ++ [s.wholeFile file.source] },
        file.definitions.map (·.name), identifiers s.descriptor.blockStyle file.source.text⟩)
    (h : s.MirrorInvariant wants c (name :: rest) kept) :
    s.MirrorInvariant wants (c.followed s.follow name) (rest ++ c.fresh s.follow name)
      (kept ++ [file]) := by
  have hdefs : (c.followed s.follow name).state.fileDefinitions = c.state.fileDefinitions := by
    rw [Chase.followed, hfollow]
  have hdone : (c.followed s.follow name).done =
      file.definitions.map (·.name) ++ name :: c.done := by
    rw [Chase.followed, hfollow]
  have hmet : ∀ n, Met c (name :: rest) n →
      Met (c.followed s.follow name) (rest ++ c.fresh s.follow name) n := fun n hn =>
    hn.settle (fun d hd => hdefs ▸ hd) (fun _ hm => hdone ▸ List.mem_append_right _ hm)
      fun _ hm => List.mem_append_left _ hm
  have hnew : ∀ n, (∃ e ∈ file.definitions, e.name = n) →
      StandsFor (c.followed s.follow name).state.fileDefinitions (kept ++ [file]) n :=
    fun n hn => Or.inr ⟨file, List.mem_append_right _ (List.mem_singleton_self _), hn⟩
  refine {
    picked := hdefs ▸ h.picked
    fragments := ?_
    first := ?_
    wanted_met := fun n hn => hmet n (h.wanted_met n hn)
    file_met := fun d hd m hm => hmet m (h.file_met d (hdefs ▸ hd) m hm)
    kept_met := ?_
    settled := ?_
    unresolved := h.unresolved }
  · rw [Chase.followed, hfollow]
    simp [h.fragments]
  · intro f hf
    rcases List.mem_append.mp hf with hf | hf
    · exact h.first f hf
    · rw [List.mem_singleton.mp hf]
      exact ⟨name, d, hfound.2⟩
  · intro f hf m hm
    rcases List.mem_append.mp hf with hf | hf
    · exact hmet m (h.kept_met f hf m hm)
    · rw [List.mem_singleton.mp hf] at hm
      exact met_fresh rest (by rw [hfollow]; exact hm)
  · intro n hn
    rcases List.mem_append.mp (hdone ▸ hn) with hn | hn
    · exact Or.inl (hnew n (List.mem_map.mp hn))
    · rcases List.mem_cons.mp hn with rfl | hn
      · exact Or.inl (hnew n hfound.2.defines)
      · refine (h.settled n hn).imp_left (·.mono (fun _ hd => hdefs ▸ hd) ?_)
        exact fun _ hfile => List.mem_append_left _ hfile

/-- A name of the project: its file is kept from now on, if it was not before. -/
theorem followed_found (hmirror : s.descriptor.projectLayout = .mirrored)
    (hone : ∀ file ∈ s.readable, ∀ file' ∈ s.readable,
      file.source.path = file'.source.path → file = file')
    {file : ProjectFile} {d : Definition}
    (hfound : FoundInProject s.surrounding s.files name file d)
    (h : s.MirrorInvariant wants c (name :: rest) kept) :
    ∃ kept', s.MirrorInvariant wants (c.followed s.follow name)
      (rest ++ c.fresh s.follow name) kept' := by
  have hfollow := follow_mirrored (g := c.state) hmirror hfound
  split at hfollow
  · rename_i hseen
    obtain ⟨f, hf, horigin⟩ := List.any_eq_true.mp hseen
    rw [h.fragments] at hf
    obtain ⟨file', hfile', rfl⟩ := List.mem_map.mp hf
    obtain ⟨n, e, hfirst⟩ := h.first file' hfile'
    have hsame : file' = file := by
      apply hone _ (mem_readable_of_first hfirst) _ (mem_readable_of_first hfound.2)
      simpa [wholeFile] using horigin
    obtain ⟨e, he, hname⟩ := hfound.2.defines
    exact ⟨kept, h.followed_kept (hsame ▸ hfile') he hname hfollow⟩
  · exact ⟨kept ++ [file], h.followed_new hfound hfollow⟩

end MirrorInvariant

section Closing

variable {wants : String → Prop} {c : Chase Gathered} {kept : List ProjectFile}
  {chosen : List Definition} {wanted missing : List String}

/-- A name that stands for nothing is neither one of the file nor one of a file that is kept. -/
theorem not_standsFor (hpicked : s.surrounding.Picked chosen)
    (hkept : ∀ file ∈ kept, file ∈ s.readable) (hn : Unresolved s.surrounding s.files n) :
    ¬ StandsFor chosen kept n := by
  have hundefined : ¬ s.surrounding.Defines n := by
    intro hdef
    obtain ⟨d, hd⟩ := hdef.denotes
    exact hn.1 d hd
  rintro (hp | ⟨file, hfile, e, he, rfl⟩)
  · exact hundefined (hpicked.defines hp)
  · have hname : e.name ∈ s.names :=
      List.mem_append_right _ (List.mem_flatMap.mpr
        ⟨file, hkept file hfile, List.mem_map_of_mem he⟩)
    obtain ⟨file', d, hfirst⟩ := (mem_names_iff.mp hname).resolve_left hundefined
    exact hn.2 file' d ⟨hundefined, hfirst⟩

/-- When no name is pending all are accounted for. -/
theorem MirrorInvariant.accounts (hstyle : s.surrounding.style = s.descriptor.blockStyle)
    (h : s.MirrorInvariant wants c [] kept) :
    Accounts s.descriptor.blockStyle wants c.state.fileDefinitions kept c.missing := by
  have hsettled : ∀ n, Met c [] n →
      StandsFor c.state.fileDefinitions kept n ∨ n ∈ c.missing := by
    rintro n (hp | hdone | hpending)
    · exact Or.inl (Or.inl hp)
    · exact h.settled n hdone
    · simp at hpending
  constructor
  · exact fun n hn => hsettled n (h.wanted_met n hn)
  · intro d hd n hn
    by_cases hown : n = d.name
    · exact Or.inl (Or.inl ⟨d, hd, hown.symm⟩)
    · rw [← hstyle] at hn
      exact hsettled n (h.file_met d hd n ((mem_references ..).mpr ⟨hn, hown⟩))
  · exact fun file hfile n hn => hsettled n (h.kept_met file hfile n hn)
  · intro n hn
    apply not_standsFor h.picked ?_ (h.unresolved n hn)
    intro file hfile
    obtain ⟨m, d, hfirst⟩ := h.first file hfile
    exact mem_readable_of_first hfirst

theorem MirrorInvariant.start (own : List Fragment) (hwants : ∀ n, wants n ↔ n ∈ wanted)
    (h : s.surrounding.Closing [] chosen wanted missing) :
    s.MirrorInvariant wants (.start ⟨chosen, [], own⟩) (sortNames missing) [] := by
  have hmet : ∀ m, Provides chosen m ∨ m ∈ missing →
      Met (.start ⟨chosen, [], own⟩) (sortNames missing) m := by
    intro m hm
    exact hm.imp_right fun hm => Or.inr ((NameOrder.mem_sortNames missing m).mpr hm)
  exact {
    picked := h.picked
    fragments := rfl
    first := by simp
    wanted_met := fun n hn => hmet n (h.served n ((hwants n).mp hn))
    file_met := fun d hd m hm => hmet m (h.covered d hd (by simp) m hm)
    kept_met := by simp
    settled := by simp [Chase.start]
    unresolved := by simp [Chase.start] }

/-- Closing in a project that is mirrored accounts for every name. -/
theorem close_accounts (hmirror : s.descriptor.projectLayout = .mirrored)
    (hstyle : s.surrounding.style = s.descriptor.blockStyle)
    (hone : ∀ file ∈ s.readable, ∀ file' ∈ s.readable,
      file.source.path = file'.source.path → file = file')
    (own : List Fragment) (hwants : ∀ n, wants n ↔ n ∈ wanted)
    (h : s.surrounding.Closing [] chosen wanted missing) :
    ∃ kept,
      Accounts s.descriptor.blockStyle wants
        (s.close ⟨chosen, [], own⟩ missing).1.fileDefinitions kept
        (s.close ⟨chosen, [], own⟩ missing).2.1 ∧
      s.surrounding.Picked (s.close ⟨chosen, [], own⟩ missing).1.fileDefinitions ∧
      (s.close ⟨chosen, [], own⟩ missing).1.fragments.Perm
        (kept.map fun file => s.wholeFile file.source) ∧
      ∀ file ∈ kept, ∃ n d, FirstDefinition s.files n file d := by
  have hrun : ∃ kept, s.MirrorInvariant wants
      (Chase.run s.names s.follow (.start ⟨chosen, [], own⟩) (sortNames missing)) [] kept := by
    apply Chase.run_invariant fun c pending => ∃ kept, s.MirrorInvariant wants c pending kept
    · rintro c name rest hdone ⟨kept, hinv⟩
      exact ⟨kept, hinv.dropped hdone⟩
    · rintro c name rest - hknown ⟨kept, hinv⟩
      by_cases hlocal : s.surrounding.Defines name
      · exact ⟨kept, hinv.followed_local hlocal⟩
      · obtain ⟨file, d, hfirst⟩ := (mem_names_iff.mp hknown).resolve_left hlocal
        exact hinv.followed_found hmirror hone ⟨hlocal, hfirst⟩
    · rintro c name rest - hunknown ⟨kept, hinv⟩
      refine ⟨kept, hinv.missed ⟨?_, ?_⟩⟩
      · exact fun d hd => hunknown (mem_names_iff.mpr (Or.inl hd.defines))
      · exact fun file d hfound => hunknown (mem_names_iff.mpr (Or.inr ⟨file, d, hfound.2⟩))
    · exact ⟨[], .start own hwants h⟩
  obtain ⟨kept, hinv⟩ := hrun
  refine ⟨kept, hinv.accounts hstyle, hinv.picked, ?_, hinv.first⟩
  rw [← hinv.fragments]
  exact List.mergeSort_perm ..

end Closing

end ProjectScope

section Places

variable {s : Site} {d : Descriptor}

theorem readSource_eq_ok {p : Path} {file : SourceFile} :
    readSource s p d = .ok file ↔ ∃ text, s.readText p = .ok text ∧ file = .ofText p d text := by
  unfold readSource
  split <;> rename_i hread <;> simp [hread, eq_comm]

/-- The definitions of a file do not depend on the path by which it was reached. -/
theorem definitions_of_place {p p' : Path} {file file' : SourceFile} {loc : Location}
    {e e' : Entry} (hread : readSource s p d = .ok file) (hread' : readSource s p' d = .ok file')
    (hplace : s.tree.stat s.cwd p = .ok (loc, e))
    (hplace' : s.tree.stat s.cwd p' = .ok (loc, e')) :
    file.definitions = file'.definitions := by
  have hentry : e = e' := Option.some.inj
    ((FileTree.find?_of_stat hplace).symm.trans (FileTree.find?_of_stat hplace'))
  obtain ⟨text, htext, rfl⟩ := readSource_eq_ok.mp hread
  obtain ⟨text', htext', rfl⟩ := readSource_eq_ok.mp hread'
  have hseen : ∀ {q text₁ e₁}, s.readText q = .ok text₁ → s.tree.stat s.cwd q = .ok (loc, e₁) →
      s.stat q = .ok (loc, e₁) := by
    intro q text₁ e₁ hq hthere
    obtain ⟨loc', e', hstat⟩ := Site.stat_of_readText hq
    cases hthere.symm.trans (FileTree.statWithin_eq_ok.mp hstat).1
    exact hstat
  have hsame : s.readText p = s.readText p' := by
    simp only [Site.readText, Site.readOctets, hseen htext hplace, hseen htext' hplace', hentry]
  rw [htext, htext'] at hsame
  cases hsame
  rfl

theorem eq_of_readable {scope : ProjectScope} {files : List Path}
    (hfiles : scope.files = loadProject s d files) :
    ∀ file ∈ scope.readable, ∀ file' ∈ scope.readable,
      file.source.path = file'.source.path → file = file' := by
  intro file hfile file' hfile' hpath
  obtain ⟨-, hread, hdefs⟩ := ProjectScope.of_readable hfiles hfile
  obtain ⟨-, hread', hdefs'⟩ := ProjectScope.of_readable hfiles hfile'
  rw [hpath, hread'] at hread
  obtain ⟨source, definitions⟩ := file
  cases hread
  obtain ⟨source', definitions'⟩ := file'
  simp_all

end Places

def Elsewhere (s : Site) (p q : Path) : Prop :=
  ∀ loc e e', s.tree.stat s.cwd p = .ok (loc, e) → s.tree.stat s.cwd q ≠ .ok (loc, e')

/-- A snippet that keeps whole files of a project and accounts for every name. The files kept
are different from each other and from the current one, by whatever paths they were reached. -/
structure HoldsProject (s : Site) (source : SourceFile) (first last : Int) (root : Path)
    (snippet : Snippet) (chosen : List Definition) (kept : List ProjectFile)
    (missing : List String) : Prop where
  names : Accounts source.descriptor.blockStyle
    (Uses source.descriptor (source.rangeText first last)) chosen kept missing
  picked : (surroundingOf source first last).Picked chosen
  fileScope : snippet.ofProvenance .fileScope = chosen.map (fileFragment source)
  read : ∀ file ∈ kept, file.definitions = file.source.definitions ∧
    readSource s file.source.path source.descriptor = .ok file.source
  projectScope : (snippet.ofProvenance .projectScope).Perm (kept.map fun file =>
    ⟨file.source.text, .projectScope, file.source.path, 1, file.source.path.relativeTo? root⟩)
  apart : kept.Pairwise fun file file' => Elsewhere s file.source.path file'.source.path
  other : ∀ file ∈ kept, s.resolve file.source.path ≠ s.resolve source.path
  misses : snippet.misses = missing.map fun n => ⟨n, snippet.level⟩

/-- Files of a project that were kept for something they define first are in different
places. -/
theorem elsewhere_of_first {s : Site} {scope : ProjectScope} {d : Descriptor} {files : List Path}
    {kept : List ProjectFile} (hfiles : scope.files = loadProject s d files)
    (hfirst : ∀ file ∈ kept, ∃ n e, FirstDefinition scope.files n file e)
    (honce : (kept.map fun file => file.source.path).Nodup) :
    kept.Pairwise fun file file' => Elsewhere s file.source.path file'.source.path := by
  refine (List.pairwise_map.mp honce).imp_of_mem ?_
  intro file file' hfile hfile' hdiffer loc e e' hplace hplace'
  obtain ⟨n, a, hn⟩ := hfirst file hfile
  obtain ⟨n', a', hn'⟩ := hfirst file' hfile'
  obtain ⟨-, hread, hdefs⟩ :=
    ProjectScope.of_readable hfiles (ProjectScope.mem_readable_of_first hn)
  obtain ⟨-, hread', hdefs'⟩ :=
    ProjectScope.of_readable hfiles (ProjectScope.mem_readable_of_first hn')
  have hsame := definitions_of_place hread hread' hplace hplace'
  have heq := hn.eq_of_definitions hn' (hdefs.trans (hsame.trans hdefs'.symm))
  exact hdiffer (congrArg (fun file => file.source.path) heq)

/-- Once the searches are made the snippet of a range accounts for every name. -/
theorem snippetWithin_holdsProject {s : Site} {limits : Limits} {source : SourceFile}
    {level : Level} {root : Path} {files : List Path} (first last : Int) (libraries : List Path)
    (hmirror : source.descriptor.projectLayout = .mirrored)
    (hfound : surveyProject s limits source level = .ok (some root, files)) :
    ∃ chosen kept missing, HoldsProject s source first last root
      (snippetWithin source first last level libraries
        (contextAround s source first last (some root) files)) chosen kept missing := by
  let scope := scopeAround s source first last root files
  have hloaded : scope.files = loadProject s source.descriptor files := rfl
  have hclosing := Surrounding.close_closing (surroundingOf source first last) []
    (wantedNames source.descriptor (source.rangeText first last)) (.nil _)
  obtain ⟨kept, hnames, hpicked, hfragments, hfirst⟩ := scope.close_accounts hmirror rfl
    (eq_of_readable hloaded) (ProjectScope.importFragments source first last)
    (mem_wantedNames source.descriptor (source.rangeText first last)) hclosing
  obtain ⟨himports, hprovenance⟩ := contextAround_mirrored s source first last (some root) files
    hmirror
  obtain ⟨-, hproject, hfile, -⟩ := ofProvenance_snippetWithin source first last level libraries
    _ himports hprovenance
  have hread := fun file (h : file ∈ kept) =>
    let ⟨_, _, hfirst⟩ := hfirst file h
    ProjectScope.of_readable hloaded (ProjectScope.mem_readable_of_first hfirst)
  have honce := (contextAround_wholeFiles s source first last root files hmirror).once
  set context := contextAround s source first last (some root) files
  have hsorted := List.mergeSort_perm context.gathered.fileDefinitions definitionLe
  refine ⟨context.gathered.fileDefinitions.mergeSort definitionLe, kept,
    sortNames context.missing, ?_⟩
  exact {
    names := hnames.reorder hsorted (NameOrder.mem_sortNames context.missing)
    picked := ⟨hsorted.nodup_iff.mpr hpicked.nodup,
      fun e he => hpicked.denotes e (hsorted.mem_iff.mp he)⟩
    fileScope := hfile
    read := fun file h => ⟨(hread file h).2.2, (hread file h).2.1⟩
    projectScope := hproject ▸ hfragments
    apart := by
      refine elsewhere_of_first hloaded hfirst ?_
      have horigins := (hfragments.map (·.origin)).nodup_iff.mp honce
      rwa [List.map_map] at horigins
    other := fun file h => (surveyProject_files hfound _ (hread file h).1).2
    misses := rfl }

/-- A request that is accepted is resolved unless a search fails. If it is one for a language
that mirrors its projects, of the level of a project or above, and a project is found, every
name is accounted for, and no file is kept twice, the current one not at all. -/
theorem resolve_accounts_for_names (s : Site) (limits : Limits) (request : RunRequest)
    (d : Descriptor) (level : Level) (source : SourceFile)
    (hmirror : d.projectLayout = .mirrored)
    (hlevel : (level.lower d.level).atLeast .project = true)
    (haccepted : Accepted s request d source) :
    (∀ failure, survey s limits source (level.lower d.level) = .error failure →
      resolve s limits request d level = .error failure) ∧
    ∀ found root, survey s limits source (level.lower d.level) = .ok found →
      found.root = some root →
      ∃ r chosen kept missing, resolve s limits request d level = .ok r ∧
        r.snippet.level = level.lower d.level ∧ r.snippet.projectRoot = some root ∧
        HoldsProject s source request.first (min request.last source.length) root r.snippet
          chosen kept missing := by
  have hfile : (level.lower d.level).atLeast .file = true := by
    cases h : level.lower d.level <;> simp_all [Level.atLeast, Level.rank]
  obtain ⟨p, -, hread⟩ := haccepted.readable
  have hd : source.descriptor = d := (readSource_ok hread).1
  have hresolve := resolve_eq_snippetWithin s limits haccepted hfile
  constructor
  · intro failure hfailure
    rw [hresolve, hfailure]
    rfl
  · intro found root hfound hroot
    have hsearched := surveyProject_of_survey hfound
    rw [hfound] at hresolve
    rw [hroot] at hsearched
    subst hd
    obtain ⟨chosen, kept, missing, hcontext⟩ := snippetWithin_holdsProject request.first
      (min request.last source.length) found.libraries hmirror hsearched
    refine ⟨_, chosen, kept, missing, hresolve, rfl, ?_, ?_⟩
    · exact (contextAround_root ..).trans hroot
    · rw [← hroot] at hcontext
      exact hcontext

section ThreeClasses

private def classFiles : Descriptor where
  name := "c"
  level := .project
  extension := ".c"
  commands := []
  definitionPatterns :=
    [.seq .start (.seq (.text "class ") (.name (.many ⟨false, [.word]⟩ true)))]
  projectLayout := .mirrored

/-- The selection uses a class of another file, which uses one of a third file. -/
private def threeClasses : Site :=
  ⟨⟨[([".git"], .directory),
    (["A.c"], .file (Text.encodeUtf8 "B()\n") false),
    (["B.c"], .file (Text.encodeUtf8 "class B D\n") false),
    (["D.c"], .file (Text.encodeUtf8 "class D\n") false)]⟩, [], [], {}⟩

private def useOfB : RunRequest where
  file := ⟨.root, ["A.c"]⟩
  first := 1
  last := 1
  scriptDir := ⟨.root, []⟩

private def fileOfUseOfB : SourceFile :=
  ⟨⟨.root, ["A.c"]⟩, classFiles, ["B()"]⟩

private def snippetOfUseOfB : Snippet where
  descriptor := classFiles
  level := .project
  fragments :=
    [⟨"class B D\n", .projectScope, ⟨.root, ["B.c"]⟩, 1, some ⟨.here, ["B.c"]⟩⟩,
     ⟨"class D\n", .projectScope, ⟨.root, ["D.c"]⟩, 1, some ⟨.here, ["D.c"]⟩⟩,
     ⟨"B()", .selection, ⟨.root, ["A.c"]⟩, 1, none⟩]
  projectRoot := some ⟨.root, []⟩
  misses := [⟨"class", .project⟩]

theorem resolve_accounts_for_names_threeClasses :
    resolve threeClasses {} useOfB classFiles .project = .ok ⟨snippetOfUseOfB, []⟩ ∧
      ∃ chosen kept missing, HoldsProject threeClasses fileOfUseOfB 1 1 ⟨.root, []⟩
        snippetOfUseOfB chosen kept missing := by
  have haccepted : Accepted threeClasses useOfB classFiles fileOfUseOfB :=
    ⟨by decide, by decide, ⟨⟨.root, ["A.c"]⟩, by cbv, by cbv⟩, by decide⟩
  have hsurvey : survey threeClasses {} fileOfUseOfB .project =
      .ok ⟨some ⟨.root, []⟩, [⟨.root, ["B.c"]⟩, ⟨.root, ["D.c"]⟩], []⟩ := by cbv
  have hresolve : resolve threeClasses {} useOfB classFiles .project =
      .ok ⟨snippetOfUseOfB, []⟩ := by cbv
  obtain ⟨r, chosen, kept, missing, hr, -, -, hcontext⟩ :=
    (resolve_accounts_for_names threeClasses {} useOfB classFiles .project fileOfUseOfB rfl rfl
      haccepted).2 _ _ hsurvey rfl
  cases hresolve.symm.trans hr
  exact ⟨hresolve, chosen, kept, missing, hcontext⟩

end ThreeClasses

end SnippetRunner.Selection
