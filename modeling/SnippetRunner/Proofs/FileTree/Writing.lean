import SnippetRunner.FileTree.Edit
import SnippetRunner.Proofs.FileTree.Walking

/-!
What making directories and writing files leave behind. Both let the tree grow; making
directories changes nothing that is there, and a write changes one file.
-/
namespace SnippetRunner.FileTree

variable {t t' t'' : FileTree} {cwd : Location} {p : Path}

/-- Something may be new, and everything else is what it was. -/
structure Added (t t' : FileTree) : Prop where
  grown : Grown t t'
  unchanged : ∀ loc e, t.find? loc = some e → t'.find? loc = some e

theorem Added.refl (t : FileTree) : Added t t :=
  ⟨.refl t, fun _ _ h => h⟩

theorem Added.trans (h : Added t t') (h' : Added t' t'') : Added t t'' :=
  ⟨h.grown.trans h'.grown, fun loc e he => h'.unchanged loc e (h.unchanged loc e he)⟩

theorem added_insert {loc : Location} {e : Entry} (hloc : loc ≠ []) (hplain : Plain e)
    (hfree : t.find? loc = none) : Added t (t.insert loc e) := by
  constructor
  · refine grown_insert hloc hplain ?_
    intro old hold
    rw [hfree] at hold
    cases hold
  · intro other old hold
    refine sameBut_insert hloc other old ?_ hold
    rintro rfl
    rw [hfree] at hold
    cases hold

theorem added_of_makeDirectory (h : t.makeDirectory cwd p = .ok t') : Added t t' := by
  unfold makeDirectory at h
  split at h
  · rename_i parent name hwalk
    cases h
    exact added_insert (by simp) trivial (walkFrom_ok (walk_ok hwalk))
  all_goals cases h

theorem settleMake_tree (t : FileTree) (cwd : Location) (p : Path) (e : FileError) :
    (settleMake t cwd p e).1 = t := by
  unfold settleMake
  split
  · rfl
  · split <;> rfl

/-- A failure to make a directory is none exactly where the path leads to a directory, and else it
keeps its cause, unless the question fails. -/
theorem settleMake_cases (t : FileTree) (cwd : Location) (p : Path) (e : FileError) :
    (∃ loc, stat t cwd p = .ok (loc, .directory)) ∧ settleMake t cwd p e = (t, none) ∨
      ∃ fault, settleMake t cwd p e = (t, some fault) ∧
        (fault.error = e ∨ t.isDirectory cwd p = .error fault.error) := by
  by_cases he : e = .nullByte
  · exact .inr ⟨_, by rw [settleMake, if_pos (beq_iff_eq.mpr he)], .inl rfl⟩
  rw [settleMake, if_neg (by simpa using he)]
  cases hthere : t.isDirectory cwd p with
  | error e' => exact .inr ⟨_, rfl, .inr rfl⟩
  | ok there =>
    cases there with
    | false => exact .inr ⟨_, rfl, .inl rfl⟩
    | true =>
      refine .inl ⟨?_, rfl⟩
      unfold isDirectory ask at hthere
      split at hthere
      · next loc entry hstat =>
        cases entry with
        | directory => exact ⟨loc, hstat⟩
        | _ => cases hthere
      · split at hthere <;> cases hthere

section Makes

variable {e : FileError}

theorem makeDirectories_of_made (h : t.makeDirectory cwd p = .ok t') :
    t.makeDirectories cwd p = (t', none) := by
  rw [makeDirectories, h]

theorem makeDirectories_of_refused (h : t.makeDirectory cwd p = .error e) (he : e ≠ .noEntry) :
    t.makeDirectories cwd p = settleMake t cwd p e := by
  rw [makeDirectories, h]
  split <;> simp_all

/-- Where nothing is on the way, the directories above are made first. -/
theorem makeDirectories_of_missing (h : t.makeDirectory cwd p = .error .noEntry)
    (hparts : p.parts ≠ []) :
    t.makeDirectories cwd p =
      match t.makeDirectories cwd p.parent with
      | (t', some fault) => (t', some fault)
      | (t', none) =>
        match t'.makeDirectory cwd p with
        | .ok t'' => (t'', none)
        | .error e => settleMake t' cwd p e := by
  rw [makeDirectories, h]
  refine (if_neg (by simpa using hparts)).trans ?_
  cases t.makeDirectories cwd p.parent with
  | mk t' fault => cases fault <;> rfl

theorem makeDirectory_existing {loc : Location} {entry : Entry}
    (h : stat t cwd p = .ok (loc, entry)) : t.makeDirectory cwd p = .error .entryExists := by
  have hwalk := stat_eq_ok.mp h
  obtain ⟨loc', entry', hfound⟩ := walkFrom_unfollowed (walk_ok hwalk)
  rw [makeDirectory, walk_eq hwalk, hfound]

/-- A directory that is there is not made. -/
theorem makeDirectories_existing {loc : Location} (h : stat t cwd p = .ok (loc, .directory)) :
    t.makeDirectories cwd p = (t, none) := by
  rw [makeDirectories_of_refused (makeDirectory_existing h) nofun]
  simp [settleMake, isDirectory, ask, h, isDirectoryEntry]

end Makes

/-- Making directories may stop half way, and even then only adds some. -/
theorem added_makeDirectories (t : FileTree) (cwd : Location) (p : Path) :
    Added t (t.makeDirectories cwd p).1 := by
  fun_induction makeDirectories t cwd p with
  | case1 p t₁ hmade => exact added_of_makeDirectory hmade
  | case2 => exact .refl t
  | case3 p hmade hparts t₁ fault habove ih =>
    rw [habove] at ih
    exact ih
  | case4 p hmade hparts t₁ habove t₂ hmade' ih =>
    rw [habove] at ih
    exact ih.trans (added_of_makeDirectory hmade')
  | case5 p hmade hparts t₁ habove e hmade' ih =>
    rw [habove] at ih
    rw [settleMake_tree]
    exact ih
  | case6 p e =>
    rw [settleMake_tree]
    exact .refl t

/-- A file that holds some octets, or what keeps nothing, like a device. -/
inductive Took (octets : List UInt8) : Entry → Prop
  | file (executable : Bool) : Took octets (.file octets executable)
  | lost {e : Entry} : ¬ Plain e → Took octets e

theorem Took.not_directory {octets : List UInt8} {e : Entry} (h : Took octets e) :
    e ≠ .directory := by
  rintro rfl
  cases h with
  | lost hplain => exact hplain trivial

/-- A write that succeeds leads the path to one place, which takes the octets, and anywhere else
there is what was there before. -/
theorem writeOctets_place {octets : List UInt8} (h : t.writeOctets cwd p octets = .ok t') :
    Grown t t' ∧ ∃ loc e, t'.stat cwd p = .ok (loc, e) ∧ Took octets e ∧
      ∀ other, other ≠ loc → t'.find? other = t.find? other := by
  have hinsert : ∀ {loc : Location} (e : Entry), loc ≠ [] →
      (t.insert loc e).find? loc = some e ∧
        ∀ other, other ≠ loc → (t.insert loc e).find? other = t.find? other := by
    intro loc e hloc
    constructor
    · rw [find?_insert t hloc, if_pos rfl]
    · intro other hother
      rw [find?_insert t hloc, if_neg hother]
  unfold writeOctets at h
  split at h
  · rename_i loc old executable hwalk
    cases h
    have hfile : t.find? loc = some (.file old executable) := walkFrom_ok (walk_ok hwalk)
    have hloc : loc ≠ [] := by
      rintro rfl
      cases hfile
    have hgrown : Grown t (t.insert loc (.file octets executable)) := by
      refine grown_insert hloc trivial ?_
      intro e he
      rw [hfile] at he
      cases he
      exact .rewritten
    obtain ⟨hhere, helsewhere⟩ := hinsert (.file octets executable) hloc
    exact ⟨hgrown, loc, _, stat_grown hgrown (stat_eq_ok.mpr hwalk) hhere, .file _, helsewhere⟩
  · cases h
  · rename_i loc e hfile hdir hwalk
    cases h
    refine ⟨.refl t, loc, e, stat_eq_ok.mpr hwalk, .lost ?_, fun _ _ => rfl⟩
    cases e with
    | directory => exact absurd rfl hdir
    | file octets x => exact absurd rfl (hfile octets x)
    | _ => exact id
  · rename_i parent name hwalk
    cases h
    have hloc : parent ++ [name] ≠ [] := by simp
    have hadded : Added t (t.insert (parent ++ [name]) (.file octets false)) :=
      added_insert hloc trivial (walkFrom_ok (walk_ok hwalk))
    obtain ⟨hhere, helsewhere⟩ := hinsert (.file octets false) hloc
    exact ⟨hadded.grown, _, _, stat_filled hadded.grown hwalk hhere trivial, .file _, helsewhere⟩
  · cases h

theorem writeOctets_ok {octets : List UInt8} (h : t.writeOctets cwd p octets = .ok t') :
    Grown t t' ∧ ∃ loc e, t'.stat cwd p = .ok (loc, e) ∧ Took octets e ∧ SameBut loc t t' := by
  obtain ⟨hgrown, loc, e, hstat, htook, helsewhere⟩ := writeOctets_place h
  exact ⟨hgrown, loc, e, hstat, htook, fun other old hne hold => (helsewhere other hne).trans hold⟩

end SnippetRunner.FileTree
