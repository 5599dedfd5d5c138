import Mathlib.Data.Nat.Init

/-!
Loops, taken round by round. A round goes on from a new state, or ends the loop with what the
loop has come to; a round that would read what is not there does neither. So a loop that is over
after some number of rounds has neither gone on for ever nor read amiss.
-/
namespace SnippetRunner

inductive Round (σ ρ : Type)
  | on (s : σ)
  | over (r : ρ)

section Loops

variable {σ ρ : Type} {round : σ → Option (Round σ ρ)}

/-- Started from a state, the loop goes on for that many rounds, and then it is over. -/
inductive OverAfter (round : σ → Option (Round σ ρ)) : Nat → σ → ρ → Prop
  | now {s : σ} {r : ρ} : round s = some (.over r) → OverAfter round 0 s r
  | later {n : Nat} {s t : σ} {r : ρ} : round s = some (.on t) → OverAfter round n t r →
      OverAfter round (n + 1) s r

/-- A loop is over in time when each round either ends it or leaves less to do, and it comes to
what every round leaves as it is. -/
theorem OverAfter.of_progress (left : σ → Nat) (result : σ → ρ)
    (progress : ∀ s, round s = some (.over (result s)) ∨
      ∃ t, round s = some (.on t) ∧ left t < left s ∧ result t = result s) (s : σ) :
    ∃ n ≤ left s, OverAfter round n s (result s) := by
  induction hleft : left s using Nat.strong_induction_on generalizing s with
  | _ size ih =>
    rcases progress s with hover | ⟨t, hon, hless, hresult⟩
    · exact ⟨0, Nat.zero_le _, .now hover⟩
    · obtain ⟨n, hn, hrest⟩ := ih (left t) (hleft ▸ hless) t rfl
      exact ⟨n + 1, by omega, .later hon (hresult ▸ hrest)⟩

end Loops

end SnippetRunner
