import SnippetRunner.Source.Definition

/-!
Chasing names. Names wait in a list; each is looked at once, and one that is known adds the
names it refers to at the end of the list. The chase ends although the list grows, because
only a known name that was not looked at before makes it grow.
-/
namespace SnippetRunner.Selection

/-- What a known name leads to: a new state, further names settled with it, and the names
it refers to. -/
structure Lead (σ : Type) where
  state : σ
  settled : List String
  references : List String

structure Chase (σ : Type) where
  state : σ
  /-- Names that are settled, latest first. -/
  done : List String
  /-- Names that were looked at and are not known, latest first. -/
  missing : List String
  /-- Names in the order in which they were looked at, latest first. -/
  visited : List String

namespace Chase

def start {σ : Type} (state : σ) : Chase σ := ⟨state, [], [], []⟩

/-- The known names that are not settled. -/
def openCount (known done : List String) : Nat :=
  known.countP fun n => !done.contains n

theorem openCount_cons_le (known done : List String) (name : String) :
    openCount known (name :: done) ≤ openCount known done := by
  apply List.countP_mono_left
  intro n _ h
  simp only [List.contains_cons] at h
  simp_all

theorem openCount_append_le (known more done : List String) :
    openCount known (more ++ done) ≤ openCount known done := by
  induction more with
  | nil => exact Nat.le_refl _
  | cons a as ih => exact Nat.le_trans (openCount_cons_le known (as ++ done) a) ih

theorem openCount_cons_lt {known done : List String} {name : String}
    (hk : name ∈ known) (hd : name ∉ done) :
    openCount known (name :: done) < openCount known done := by
  induction known with
  | nil => simp at hk
  | cons k ks ih =>
    simp only [openCount, List.countP_cons]
    have hle : ks.countP (fun n => !(name :: done).contains n) ≤
        ks.countP (fun n => !done.contains n) := openCount_cons_le ks done name
    by_cases hkn : k = name
    · subst hkn
      simp [hd] at hle ⊢
      omega
    · have hmem : name ∈ ks := by
        rcases List.mem_cons.mp hk with h | h
        · exact absurd h.symm hkn
        · exact h
      have hlt : ks.countP (fun n => !(name :: done).contains n) <
          ks.countP (fun n => !done.contains n) := ih hmem
      have hsame : (name :: done).contains k = done.contains k := by
        simp [hkn]
      rw [hsame]
      omega

def run {σ : Type} (known : List String) (follow : σ → String → Lead σ) (c : Chase σ)
    (pending : List String) : Chase σ :=
  match pending with
  | [] => c
  | name :: rest =>
    if name ∈ c.done then run known follow c rest
    else if name ∈ known then
      let lead := follow c.state name
      let done := lead.settled ++ name :: c.done
      let fresh := Source.sortNames (lead.references.filter fun n => !done.contains n)
      run known follow ⟨lead.state, done, c.missing, name :: c.visited⟩ (rest ++ fresh)
    else
      run known follow ⟨c.state, name :: c.done, name :: c.missing, name :: c.visited⟩ rest
  termination_by (openCount known c.done, pending.length)
  decreasing_by
    · apply Prod.Lex.right
      simp
    · rename_i hd hk
      apply Prod.Lex.left
      exact Nat.lt_of_le_of_lt (openCount_append_le known _ _) (openCount_cons_lt hk hd)
    · rcases Nat.lt_or_eq_of_le (openCount_cons_le known c.done name) with h | h
      · exact Prod.Lex.left _ _ h
      · rw [h]
        apply Prod.Lex.right
        simp

end Chase

end SnippetRunner.Selection
