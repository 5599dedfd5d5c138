import SnippetRunner.Project.Library
import SnippetRunner.Project.Listing
import SnippetRunner.Project.Root
import SnippetRunner.Proofs.FileTree.Enumeration
import SnippetRunner.Proofs.FileTree.Trails
import SnippetRunner.Proofs.Success
import SnippetRunner.Proofs.Text.NameOrder

/-!
Searching a project whose directories are listed in another order. The scan for source files
sorts the entries of each directory before it takes any, and so comes to the same files, also
when there are more than it may take. What a glob or a directory of the system comes to is sorted
before any of it is listed as a library. A glob itself comes to the same paths in another order,
as long as the process may look at all that it meets.
-/
namespace SnippetRunner.Project

/-- Orders of enumeration: of the names in a directory, of the paths that are found for a pattern
below a root, and of a set of names, given by some list that may repeat them. -/
structure Enumeration where
  listed : Path → List String → List String
  found : Path → String → List Path → List Path
  names : List String → List String
  listed_perm : ∀ directory l, (listed directory l).Perm l
  found_perm : ∀ root pattern l, (found root pattern l).Perm l
  mem_names : ∀ l n, n ∈ names l ↔ n ∈ l

section By

variable (o : Enumeration) (s : Site) (search : Search)

end By

section Anchors

variable {s : Site} {p : Path} {anchor : Anchor} {found : List Path}
  {select : Path → Except Failure (List Path)}

end Anchors

section Sorted

variable (o : Enumeration)

end Sorted

section Scan

variable {s s' : Site} (h : s.Reordered s')

include h

end Scan

/-- Where one search finds something, another finds the same, in some order. -/
def GivesPerm {α : Type} (x y : Except Failure (List α)) : Prop :=
  ∀ found, x = .ok found → ∃ found', y = .ok found' ∧ found.Perm found'

section Composed

variable {α β γ : Type}

theorem GivesPerm.bind {x y : Except Failure (List α)} {f g : List α → Except Failure (List β)}
    (hx : GivesPerm x y) (hf : ∀ ps ps', ps.Perm ps' → GivesPerm (f ps) (g ps')) :
    GivesPerm (x >>= f) (y >>= g) := by
  intro found hfound
  obtain ⟨ps, hps, hfound⟩ := Success.bind_eq_ok.mp hfound
  obtain ⟨ps', hps', hperm⟩ := hx ps hps
  obtain ⟨found', hfound', hfoundPerm⟩ := hf ps ps' hperm found hfound
  exact ⟨found', Success.bind_eq_ok.mpr ⟨ps', hps', hfound'⟩, hfoundPerm⟩

end Composed

section Glob

variable {s s' : Site} (h : s.Reordered s')

include h

variable {select select' : Path → Except Failure (List Path)}

end Glob

section Libraries

variable {s s' : Site} (h : s.Reordered s')

include h

end Libraries

end SnippetRunner.Project
