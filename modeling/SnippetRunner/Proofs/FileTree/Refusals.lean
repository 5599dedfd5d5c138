import SnippetRunner.Proofs.FileTree.Writing

/-!
Paths that cannot be passed to the file tree. Only a NUL makes a path one of them; an
operation on any other path that fails does so for a reason of the file tree itself.
-/
namespace SnippetRunner.FileTree

variable {t t' : FileTree} {cwd : Location} {p : Path} {e : FileError}

theorem walkFrom_error {follow : Bool} {budget : Nat} {here : Location} {names : List String}
    (h : walkFrom t follow budget here names = .error e) : e ≠ .nullByte := by
  fun_induction walkFrom t follow budget here names with
  | case3 | case10 | case11 => simp_all
  | case1 | case5 | case7 => cases h
  | _ =>
    cases h
    exact FileError.noConfusion

theorem walk_error {follow : Bool} (hp : p.hasNul = false)
    (h : walk t cwd follow p = .error e) : e ≠ .nullByte := by
  unfold walk at h
  split at h
  · simp_all
  · split at h
    · cases h
      exact FileError.noConfusion
    · exact walkFrom_error h

theorem stat_error (hp : p.hasNul = false) (h : stat t cwd p = .error e) : e ≠ .nullByte := by
  unfold stat at h
  split at h
  · cases h
  · cases h
    exact FileError.noConfusion
  · rename_i hwalk
    cases h
    exact walk_error hp hwalk

theorem hasNul_of_stat {found : Location × Entry} (h : stat t cwd p = .ok found) :
    p.hasNul = false := by
  cases hp : p.hasNul with
  | false => rfl
  | true => simp [stat, walk, hp] at h

section Questions

theorem walkFrom_error_kind {follow : Bool} {budget : Nat} {here : Location}
    {names : List String} (h : walkFrom t follow budget here names = .error e) :
    e.meansAbsent = true ∨ e = .nameTooLong := by
  fun_induction walkFrom t follow budget here names with
  | case3 | case10 | case11 => simp_all
  | case1 | case5 | case7 => cases h
  | _ =>
    cases h
    simp [FileError.meansAbsent]

theorem stat_error_kind (h : stat t cwd p = .error e) :
    e.meansAbsent = true ∨ e = .nameTooLong := by
  unfold stat at h
  split at h
  · cases h
  · cases h
    exact Or.inl rfl
  · rename_i hwalk
    cases h
    unfold walk at hwalk
    split at hwalk
    · cases hwalk
      exact Or.inl rfl
    · split at hwalk
      · cases hwalk
        exact Or.inr rfl
      · exact walkFrom_error_kind hwalk

/-- The only question about a path that is not answered is one whose walk meets a name that is
too long. -/
theorem ask_eq_error {test : Entry → Bool} :
    ask t cwd p test = .error e ↔ stat t cwd p = .error .nameTooLong ∧ e = .nameTooLong := by
  unfold ask
  cases hstat : stat t cwd p with
  | ok found => simp
  | error e' =>
    rcases stat_error_kind hstat with habsent | rfl
    · have hne : e' ≠ .nameTooLong := by
        rintro rfl
        cases habsent
      simp [habsent, hne]
    · simp [FileError.meansAbsent, eq_comm]

end Questions

theorem isDirectory_error (hp : p.hasNul = false) (h : t.isDirectory cwd p = .error e) :
    e ≠ .nullByte := by
  unfold isDirectory ask at h
  split at h
  · cases h
  · rename_i hstat
    split at h
    · cases h
    · cases h
      exact stat_error hp hstat

theorem makeDirectory_error (hp : p.hasNul = false) (h : t.makeDirectory cwd p = .error e) :
    e ≠ .nullByte := by
  unfold makeDirectory at h
  split at h
  · cases h
  · cases h
    exact FileError.noConfusion
  · rename_i hwalk
    cases h
    exact walk_error hp hwalk

theorem settleMake_fault (hp : p.hasNul = false) (he : e ≠ .nullByte) {fault : FileFault}
    (h : (settleMake t cwd p e).2 = some fault) : fault.error ≠ .nullByte := by
  unfold settleMake at h
  split at h
  · simp_all
  · split at h
    · cases h
    · cases h
      exact he
    · rename_i hdir
      cases h
      exact isDirectory_error hp hdir

theorem hasNul_parent (hp : p.hasNul = false) : p.parent.hasNul = false := by
  simp only [Path.hasNul, Path.parent, List.any_eq_false] at hp ⊢
  exact fun name hname => hp name (List.dropLast_subset _ hname)

theorem stemOf_mem {name : String} {c : Char} (h : c ∈ (Path.stemOf name).toList) :
    c ∈ name.toList := by
  unfold Path.stemOf at h
  split at h
  · rw [String.toList_ofList] at h
    exact List.mem_of_mem_take h
  · exact h

/-- A suffix without a NUL brings none into a path. -/
theorem hasNul_withSuffix {path other : Path} {suffix : String} (hpath : path.hasNul = false)
    (hsuffix : '\x00' ∉ suffix.toList) (h : path.withSuffix? suffix = some other) :
    other.hasNul = false := by
  have hold : ∀ name ∈ path.parts, '\x00' ∉ name.toList := by
    simpa [Path.hasNul] using hpath
  unfold Path.withSuffix? at h
  split at h
  · cases h
  · rename_i hnamed
    cases h
    have hname : path.name ∈ path.parts := by
      unfold Path.name at hnamed ⊢
      cases hlast : path.parts.getLast? with
      | none => simp [hlast] at hnamed
      | some name => exact List.mem_of_getLast? hlast
    simp only [Path.hasNul, List.any_append, List.any_cons, List.any_nil, Bool.or_false,
      Bool.or_eq_false_iff, List.any_eq_false, String.toList_append, List.contains_eq_mem,
      decide_eq_true_eq, decide_eq_false_iff_not, List.mem_append, not_or]
    refine ⟨fun name hmem => hold name (List.dropLast_subset _ hmem), ?_, hsuffix⟩
    exact fun hstem => hold _ hname (stemOf_mem hstem)

theorem makeDirectories_fault (hp : p.hasNul = false) {fault : FileFault}
    (h : (t.makeDirectories cwd p).2 = some fault) : fault.error ≠ .nullByte := by
  fun_induction makeDirectories t cwd p with
  | case1 => cases h
  | case2 =>
    cases h
    exact FileError.noConfusion
  | case3 p hmade hparts t₁ found habove ih =>
    rw [habove] at ih
    exact ih (hasNul_parent hp) h
  | case4 => cases h
  | case5 p hmade hparts t₁ habove e hmade' ih =>
    exact settleMake_fault hp (makeDirectory_error hp hmade') h
  | case6 p e hne hmade => exact settleMake_fault hp (makeDirectory_error hp hmade) h

theorem writeOctets_error {octets : List UInt8} (hp : p.hasNul = false)
    (h : t.writeOctets cwd p octets = .error e) : e ≠ .nullByte := by
  unfold writeOctets at h
  split at h
  · cases h
  · cases h
    exact FileError.noConfusion
  · cases h
  · cases h
  · rename_i hwalk
    cases h
    exact walk_error hp hwalk

theorem replaceFile_error {q : Path} (hp : p.hasNul = false) (hq : q.hasNul = false)
    (h : t.replaceFile cwd p q = .error e) : e ≠ .nullByte := by
  unfold replaceFile at h
  split at h
  · split at h
    all_goals
      cases h
      exact FileError.noConfusion
  · split at h <;> cases h
  · cases h
  · cases h
    exact FileError.noConfusion
  · rename_i hwalk
    cases h
    exact walk_error hp hwalk
  · rename_i hwalk _ _
    cases h
    exact walk_error hq hwalk

end SnippetRunner.FileTree
