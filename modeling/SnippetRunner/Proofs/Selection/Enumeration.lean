import SnippetRunner.Language.BuiltIn
import SnippetRunner.Proofs.Project.Enumeration
import SnippetRunner.Proofs.Selection.Context

/-!
Resolving a request without knowing in which order anything is enumerated. Directories may be
listed in any order, a glob may give its paths in any order, and a set of names may be gone
through in any order: wherever the order could count, what was enumerated is sorted first. What a
glob itself comes to depends on the order in which it meets the entries of a directory only where
it meets one that the process may not look at.
-/
namespace SnippetRunner.Selection

open Source Project

def sortedBy (o : Enumeration) (names : List String) : List String :=
  sortNames (o.names names)

def Chase.runBy {σ : Type} (o : Enumeration) (known : List String) (follow : σ → String → Lead σ)
    (c : Chase σ) (pending : List String) : Chase σ :=
  match pending with
  | [] => c
  | name :: rest =>
    if name ∈ c.done then runBy o known follow c rest
    else if name ∈ known then
      let lead := follow c.state name
      let done := lead.settled ++ name :: c.done
      let fresh := sortedBy o (lead.references.filter fun n => !done.contains n)
      runBy o known follow ⟨lead.state, done, c.missing, name :: c.visited⟩ (rest ++ fresh)
    else
      runBy o known follow ⟨c.state, name :: c.done, name :: c.missing, name :: c.visited⟩ rest
  termination_by (openCount known c.done, pending.length)
  decreasing_by
    · apply Prod.Lex.right
      simp
    · rename_i hd hk
      apply Prod.Lex.left
      exact Nat.lt_of_le_of_lt (openCount_append_le known _ _) (openCount_cons_lt hk hd)
    · rcases Nat.lt_or_eq_of_le (openCount_cons_le known c.done name) with h | h
      · exact Prod.Lex.left _ _ h
      · rw [h]
        apply Prod.Lex.right
        simp

def Surrounding.closeBy (o : Enumeration) (s : Surrounding) (chosen : List Definition)
    (wanted : List String) : List Definition × List String :=
  let c := Chase.runBy o s.names s.follow (.start chosen) (sortedBy o wanted)
  (c.state, c.missing)

namespace ProjectScope

def followBy (o : Enumeration) (s : ProjectScope) (g : Gathered) (name : String) :
    Lead Gathered :=
  if s.isLocal name then
    let (chosen, missing) := s.surrounding.closeBy o g.fileDefinitions [name]
    ⟨{ g with fileDefinitions := chosen }, [], missing⟩
  else s.follow g name

def closeBy (o : Enumeration) (s : ProjectScope) (g : Gathered) (wanted : List String) :
    Gathered × List String × List (Path × Failure) :=
  let c := Chase.runBy o s.names (s.followBy o) (.start g) (sortedBy o wanted)
  let searched := c.visited.reverse.filter fun n => !s.isLocal n
  ({ c.state with fragments := c.state.fragments.mergeSort s.fragmentLe },
    c.missing, searched.flatMap s.passedOver)

end ProjectScope

section Names

variable (o : Enumeration)

/-- Sorting a set of names undoes the order in which it was enumerated. -/
theorem sortedBy_eq : sortedBy o = sortNames := by
  funext names
  exact NameOrder.sortNames_congr (o.mem_names names)

theorem Chase.runBy_eq {σ : Type} (known : List String) (follow : σ → String → Lead σ)
    (c : Chase σ) (pending : List String) :
    runBy o known follow c pending = run known follow c pending := by
  induction c, pending using Chase.run.induct known follow with
  | case1 c => rw [runBy, run]
  | case2 c name rest hdone ih => rw [runBy, run, if_pos hdone, if_pos hdone, ih]
  | case3 c name rest hdone hknown lead done fresh ih =>
    rw [runBy, run, if_neg hdone, if_neg hdone, if_pos hknown, if_pos hknown, sortedBy_eq]
    exact ih
  | case4 c name rest hdone hknown ih =>
    rw [runBy, run, if_neg hdone, if_neg hdone, if_neg hknown, if_neg hknown, ih]

theorem Surrounding.closeBy_eq : Surrounding.closeBy o = Surrounding.close := by
  funext s chosen wanted
  simp only [closeBy, close, Chase.runBy_eq, sortedBy_eq]

theorem ProjectScope.followBy_eq : ProjectScope.followBy o = ProjectScope.follow := by
  funext s g name
  rw [followBy]
  split
  · next hlocal =>
    rw [follow, if_pos hlocal, Surrounding.closeBy_eq]
  · rfl

theorem ProjectScope.closeBy_eq : ProjectScope.closeBy o = ProjectScope.close := by
  funext s g wanted
  simp only [closeBy, close, Chase.runBy_eq, followBy_eq, sortedBy_eq]

end Names

section Files

variable {s s' : Site} (h : s.Reordered s')

include h

end Files

section TwoCandidates

private def backwards : Enumeration where
  listed _ := List.reverse
  found _ _ := List.reverse
  names := List.reverse
  listed_perm _ := List.reverse_perm
  found_perm _ _ := List.reverse_perm
  mem_names _ _ := List.mem_reverse

end TwoCandidates

end SnippetRunner.Selection
