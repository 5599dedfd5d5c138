import SnippetRunner.Proofs.Text.NameOrder
import SnippetRunner.Selection.Chase

/-!
The rule of induction for a chase. What holds at the start and is kept by each of the
three moves (a name that is settled is dropped, one that is known is followed, any other
one is missed) holds at the end, when no name is pending.
-/
namespace SnippetRunner.Selection.Chase

open Source

variable {σ : Type} {known : List String} {follow : σ → String → Lead σ}

def followed (c : Chase σ) (follow : σ → String → Lead σ) (name : String) : Chase σ :=
  ⟨(follow c.state name).state, (follow c.state name).settled ++ name :: c.done, c.missing,
    name :: c.visited⟩

def fresh (c : Chase σ) (follow : σ → String → Lead σ) (name : String) : List String :=
  sortNames ((follow c.state name).references.filter
    fun n => !(c.followed follow name).done.contains n)

def missed (c : Chase σ) (name : String) : Chase σ :=
  ⟨c.state, name :: c.done, name :: c.missing, name :: c.visited⟩

theorem mem_fresh (c : Chase σ) (follow : σ → String → Lead σ) (name n : String) :
    n ∈ c.fresh follow name ↔
      n ∈ (follow c.state name).references ∧ n ∉ (c.followed follow name).done := by
  simp [fresh, NameOrder.mem_sortNames]

theorem run_invariant (motive : Chase σ → List String → Prop)
    (dropped : ∀ c name rest, name ∈ c.done → motive c (name :: rest) → motive c rest)
    (known_ : ∀ c name rest, name ∉ c.done → name ∈ known → motive c (name :: rest) →
      motive (c.followed follow name) (rest ++ c.fresh follow name))
    (unknown : ∀ c name rest, name ∉ c.done → name ∉ known → motive c (name :: rest) →
      motive (c.missed name) rest)
    (c : Chase σ) (pending : List String) (h : motive c pending) :
    motive (run known follow c pending) [] := by
  fun_induction run known follow c pending with
  | case1 c => exact h
  | case2 c name rest hdone ih => exact ih (dropped c name rest hdone h)
  | case3 c name rest hdone hknown lead done fresh_ ih =>
    exact ih (known_ c name rest hdone hknown h)
  | case4 c name rest hdone hknown ih => exact ih (unknown c name rest hdone hknown h)

end SnippetRunner.Selection.Chase
