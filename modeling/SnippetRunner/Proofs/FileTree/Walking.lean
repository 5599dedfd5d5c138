import SnippetRunner.FileTree.Walk
import SnippetRunner.Proofs.FileTree.Growth

/-!
Where walks end. A walk that ends at an entry ends there again when the tree has grown, a
walk through a directory is a walk to it and one from it, and from a place with nothing but
files and directories below it a walk arrives where its names say.
-/
namespace SnippetRunner.FileTree

def PlainBelow (t : FileTree) (loc : Location) : Prop :=
  ∀ names e, t.find? (loc ++ names) = some e → Plain e

section WalkFrom

variable {t t' : FileTree} {follow : Bool} {budget : Nat} {here loc : Location}
  {names : List String}

/-- When the tree has grown, a walk ends where it ended before, also at a name that was free
and is not any more. -/
theorem walkFrom_grown (hgrown : Grown t t') {place : Place} {e : Entry}
    (h : walkFrom t follow budget here names = .ok place)
    (he : t'.find? place.location = some e) (hplain : place.entry? = none → Plain e) :
    walkFrom t' follow budget here names = .ok (.existing place.location e) := by
  fun_induction walkFrom t follow budget here names with
  | case1 budget here entry hentry =>
    cases h
    simp only [Place.location] at he ⊢
    rw [walkFrom, he]
  | case3 budget here name rest hdir hdots ih =>
    obtain rfl := by simpa using hdots
    rw [walkFrom_up (hgrown.directory hdir)]
    exact ih h
  | case5 budget here name rest hdir hdots hsize hnone hlast =>
    cases h
    obtain rfl := by simpa using hlast
    simp only [Place.location] at he ⊢
    rw [walkFrom_enter (hgrown.directory hdir) (by simpa using hdots) (by omega) he
      (hplain rfl).not_link, walkFrom, he]
  | case7 budget here name rest hdir hdots hsize target hlink hlast =>
    cases h
    have hlink' := hgrown.link hlink
    cases hlink'.symm.trans he
    rw [walkFrom, hgrown.directory hdir]
    simp [hdots, hsize, hlink', hlast, Place.location]
  | case10 here name rest hdir hdots hsize target hlink hlast budget hempty ih =>
    rw [walkFrom, hgrown.directory hdir]
    simp only [hdots, hsize, hgrown.link hlink, hlast, hempty]
    exact ih h
  | case11 budget here name rest hdir hdots hsize e hlink hentry ih =>
    obtain ⟨e₂, he₂, hstays⟩ := hgrown.kept _ _ hentry
    rw [walkFrom_enter (hgrown.directory hdir) (by simpa using hdots) (by omega) he₂
      (hstays.not_link hlink)]
    exact ih h
  | _ => cases h

/-- A walk that goes on after some names has come to a directory by them. -/
theorem walkFrom_append {more : List String} {place : Place} (hmore : more ≠ [])
    (h : walkFrom t true budget here (names ++ more) = .ok place) :
    ∃ loc left, walkFrom t true budget here names = .ok (.existing loc .directory) ∧
      walkFrom t true left loc more = .ok place := by
  obtain ⟨next, rest', rfl⟩ := List.exists_cons_of_ne_nil hmore
  fun_induction walkFrom t true budget here names with
  | case1 budget here entry hentry =>
    cases entry with
    | directory => exact ⟨here, budget, rfl, h⟩
    | _ => simp [walkFrom, hentry] at h
  | case2 budget here hnone => simp [walkFrom, hnone] at h
  | case3 budget here n rest hdir hdots ih =>
    obtain rfl := by simpa using hdots
    rw [List.cons_append, walkFrom_up hdir] at h
    exact ih h
  | case10 here n rest hdir hdots hsize target hlink hlast budget hempty ih =>
    rw [List.cons_append, walkFrom_target (fun _ => rfl) hdir (by simpa using hdots) (by omega)
      hlink (by simpa using hempty), ← List.append_assoc] at h
    exact ih h
  | case11 budget here n rest hdir hdots hsize e hlink hentry ih =>
    rw [List.cons_append, walkFrom_enter hdir (by simpa using hdots) (by omega) hentry hlink] at h
    exact ih h
  | case5 | case6 | case8 | case9 =>
    rw [List.cons_append, walkFrom] at h
    simp_all
    split at h <;> cases h
  | _ =>
    rw [List.cons_append, walkFrom] at h
    simp_all

/-- A walk to a directory goes on from there by any further names. -/
theorem walkFrom_through {more : List String} (hmore : more = [] → follow = true)
    (h : walkFrom t true budget here names = .ok (.existing loc .directory)) :
    ∃ left, walkFrom t follow budget here (names ++ more) = walkFrom t follow left loc more := by
  fun_induction walkFrom t true budget here names with
  | case1 budget here entry hentry =>
    cases h
    exact ⟨budget, rfl⟩
  | case3 budget here n rest hdir hdots ih =>
    obtain rfl := by simpa using hdots
    rw [List.cons_append, walkFrom_up hdir]
    exact ih h
  | case7 => simp_all
  | case10 here n rest hdir hdots hsize target hlink hlast budget hempty ih =>
    have hgoes : (rest ++ more).isEmpty = true → follow = true := by
      intro hnone
      exact hmore (List.append_eq_nil_iff.mp (List.isEmpty_iff.mp hnone)).2
    rw [List.cons_append, walkFrom_target hgoes hdir (by simpa using hdots) (by omega) hlink
      (by simpa using hempty), ← List.append_assoc]
    exact ih h
  | case11 budget here n rest hdir hdots hsize e hlink hentry ih =>
    rw [List.cons_append, walkFrom_enter hdir (by simpa using hdots) (by omega) hentry hlink]
    exact ih h
  | _ => cases h

/-- Whether the last link is followed does not matter to a walk that ends at no link. -/
theorem walkFrom_followed {place : Place} (hlink : ∀ target, place.entry? ≠ some (.link target))
    (h : walkFrom t false budget here names = .ok place) :
    walkFrom t true budget here names = .ok place := by
  fun_induction walkFrom t false budget here names with
  | case1 budget here entry hentry =>
    cases h
    rw [walkFrom, hentry]
  | case3 budget here n rest hdir hdots ih =>
    obtain rfl := by simpa using hdots
    rw [walkFrom_up hdir]
    exact ih h
  | case5 budget here n rest hdir hdots hsize hnone hlast =>
    cases h
    rw [walkFrom, hdir]
    simp [hdots, hsize, hnone, hlast]
  | case7 =>
    cases h
    exact absurd rfl (hlink _)
  | case10 here n rest hdir hdots hsize target htarget hlast budget hempty ih =>
    rw [walkFrom_target (fun _ => rfl) hdir (by simpa using hdots) (by omega) htarget
      (by simpa using hempty)]
    exact ih h
  | case11 budget here n rest hdir hdots hsize e' hlink' hentry ih =>
    rw [walkFrom_enter hdir (by simpa using hdots) (by omega) hentry hlink']
    exact ih h
  | _ => cases h

/-- A walk that ends at an entry ends at one also when the last link is not followed. -/
theorem walkFrom_unfollowed {e : Entry}
    (h : walkFrom t true budget here names = .ok (.existing loc e)) :
    ∃ loc' e', walkFrom t false budget here names = .ok (.existing loc' e') := by
  fun_induction walkFrom t true budget here names with
  | case1 budget here entry hentry => exact ⟨here, entry, by rw [walkFrom, hentry]⟩
  | case3 budget here n rest hdir hdots ih =>
    obtain rfl := by simpa using hdots
    rw [walkFrom_up hdir]
    exact ih h
  | case10 here n rest hdir hdots hsize target hlink hlast budget hempty ih =>
    cases hrest : rest.isEmpty with
    | true =>
      refine ⟨here ++ [n], .link target, ?_⟩
      rw [walkFrom, hdir]
      simp [hdots, hsize, hlink, hrest]
    | false =>
      rw [walkFrom_target (by simp [hrest]) hdir (by simpa using hdots) (by omega) hlink
        (by simpa using hempty)]
      exact ih h
  | case11 budget here n rest hdir hdots hsize e hlink hentry ih =>
    rw [walkFrom_enter hdir (by simpa using hdots) (by omega) hentry hlink]
    exact ih h
  | _ => simp_all

theorem walkFrom_below (hplain : PlainBelow t here) (hdots : ".." ∉ names) {loc : Location}
    {e : Entry} (h : walkFrom t follow budget here names = .ok (.existing loc e)) :
    loc = here ++ names := by
  fun_induction walkFrom t follow budget here names with
  | case1 => cases h; simp
  | case3 => simp_all
  | case7 budget here n rest hdir hn hsize target hlink hlast =>
    exact absurd (hplain [n] _ hlink) (by simp [Plain])
  | case10 here n rest hdir hn hsize target hlink hlast budget hempty ih =>
    exact absurd (hplain [n] _ hlink) (by simp [Plain])
  | case11 budget here n rest hdir hn hsize e hlink hentry ih =>
    have hbelow : PlainBelow t (here ++ [n]) := by
      intro names e he
      exact hplain (n :: names) e (by simpa using he)
    rw [ih hbelow (fun hmem => hdots (List.mem_cons_of_mem _ hmem)) h]
    simp
  | _ => cases h

end WalkFrom

section Walk

variable {t t' : FileTree} {cwd : Location} {follow : Bool} {p : Path} {loc : Location}
  {e e' : Entry}

theorem walk_ok {place : Place} (h : walk t cwd follow p = .ok place) :
    walkFrom t follow linkBudget (startOf cwd p) p.parts = .ok place := by
  unfold walk at h
  split at h
  · cases h
  · split at h
    · cases h
    · exact h

/-- Whether a path is refused for its form does not depend on the tree, nor on following. -/
theorem walk_eq {follow' : Bool} {place : Place} (h : walk t cwd follow p = .ok place) :
    walk t' cwd follow' p = walkFrom t' follow' linkBudget (startOf cwd p) p.parts := by
  unfold walk at h ⊢
  split at h
  · cases h
  · rename_i hnul
    split at h
    · cases h
    · rename_i hlong
      rw [if_neg hnul, if_neg hlong]

/-- A path of admissible form is walked by its names. -/
theorem walk_short (hnul : p.hasNul = false)
    (hshort : p.toString.utf8ByteSize < maxPathOctets) :
    walk t cwd follow p = walkFrom t follow linkBudget (startOf cwd p) p.parts := by
  rw [walk, hnul, if_neg (by simp), if_neg (by omega)]

theorem form_of_walk {place : Place} (h : walk t cwd follow p = .ok place) :
    p.hasNul = false ∧ p.toString.utf8ByteSize < maxPathOctets := by
  unfold walk at h
  split at h
  · cases h
  · next hnul =>
    split at h
    · cases h
    · exact ⟨by simpa using hnul, by omega⟩

theorem stat_eq_ok : stat t cwd p = .ok (loc, e) ↔ walk t cwd true p = .ok (.existing loc e) := by
  unfold stat
  split <;> simp_all

theorem find?_of_stat (h : stat t cwd p = .ok (loc, e)) : t.find? loc = some e :=
  walkFrom_ok (walk_ok (stat_eq_ok.mp h))

theorem stat_grown (hgrown : Grown t t') (h : stat t cwd p = .ok (loc, e))
    (he' : t'.find? loc = some e') : stat t' cwd p = .ok (loc, e') := by
  have hwalk := stat_eq_ok.mp h
  rw [stat_eq_ok, walk_eq hwalk]
  exact walkFrom_grown hgrown (walk_ok hwalk) he' nofun

theorem stat_filled (hgrown : Grown t t') {parent : Location} {name : String}
    (h : walk t cwd true p = .ok (.vacant parent name))
    (he : t'.find? (parent ++ [name]) = some e) (hplain : Plain e) :
    stat t' cwd p = .ok (parent ++ [name], e) := by
  rw [stat_eq_ok, walk_eq h]
  exact walkFrom_grown hgrown (walk_ok h) he fun _ => hplain

/-- With nothing but files and directories below a directory, a path that goes on from it
by names leads where they say. -/
theorem stat_join_below {base tail : Path} {top : Location}
    (htail : tail.anchor = .here) (hnames : tail.parts ≠ []) (hdots : ".." ∉ tail.parts)
    (hbase : stat t cwd base = .ok (top, .directory)) (hplain : PlainBelow t top)
    (h : stat t cwd (base.join tail) = .ok (loc, e)) : loc = top ++ tail.parts := by
  have hjoin : base.join tail = ⟨base.anchor, base.parts ++ tail.parts⟩ := by
    simp [Path.join, Path.isAbsolute, htail]
  have hstart : startOf cwd (base.join tail) = startOf cwd base := by
    simp [startOf, Path.isAbsolute, hjoin]
  have hwalk := walk_ok (stat_eq_ok.mp h)
  rw [hstart, hjoin] at hwalk
  obtain ⟨found, left, hfound, hrest⟩ := walkFrom_append hnames hwalk
  have htop := walk_ok (stat_eq_ok.mp hbase)
  rw [htop] at hfound
  cases hfound
  exact walkFrom_below hplain hdots hrest

end Walk

end SnippetRunner.FileTree
