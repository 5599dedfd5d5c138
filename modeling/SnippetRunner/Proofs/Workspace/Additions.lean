import SnippetRunner.Delegate.Interpreter
import SnippetRunner.Proofs.FileTree.Writing
import SnippetRunner.Proofs.Success
import SnippetRunner.Workspace.Materials

/-!
What writing the files of a run does to the file tree whether or not it succeeds: the tree
grows. Only cleaning takes anything away.
-/
namespace SnippetRunner.Workspace

open FileTree Success

structure Grows {α : Type} (f : Files α) : Prop where
  grown : ∀ t, Grown t (outcome f t).2

section Composed

variable {α β : Type}

theorem Grows.bind {x : Files α} {f : α → Files β} (hx : Grows x) (hf : ∀ a, Grows (f a)) :
    Grows (x >>= f) := by
  refine ⟨fun t => ?_⟩
  have hgrown := hx.grown t
  rw [outcome_bind]
  split
  · next a mid hmid =>
    rw [hmid] at hgrown
    exact hgrown.trans ((hf a).grown mid)
  · next hmid =>
    rw [hmid] at hgrown
    exact hgrown

theorem grows_pure (a : α) : Grows (pure a : Files α) := ⟨fun t => .refl t⟩

theorem grows_get : Grows (get : Files FileTree) := ⟨fun t => .refl t⟩

theorem grows_throw (f : Failure) : Grows (throw f : Files α) := ⟨fun t => .refl t⟩

theorem grows_lift (r : Except Failure α) : Grows (liftM r : Files α) := by
  refine ⟨fun t => ?_⟩
  rw [outcome_lift]
  exact .refl t

end Composed

variable (w : Workspace) (p : Path)

theorem makeDirectory_tree (kind : FileFault → WorkspaceFault) (t : FileTree) :
    (outcome (w.makeDirectory p kind) t).2 = (t.makeDirectories w.cwd p).1 := by
  unfold makeDirectory
  simp only [outcome_bind, outcome_get, outcome_set]
  cases (t.makeDirectories w.cwd p).2 <;> rfl

theorem makeDirectory_grows (kind : FileFault → WorkspaceFault) :
    Grows (w.makeDirectory p kind) := by
  refine ⟨fun t => ?_⟩
  rw [makeDirectory_tree]
  exact (added_makeDirectories t w.cwd p).grown

theorem ensure_grows : Grows w.ensure :=
  (makeDirectory_grows ..).bind fun _ => grows_pure _

theorem writeFile_grows (content : String) : Grows (w.writeFile p content) := by
  refine (makeDirectory_grows ..).bind fun _ => ⟨fun t => ?_⟩
  rw [outcome_bind, outcome_get]
  dsimp only
  split
  · next t' hwritten =>
    rw [outcome_set]
    exact (writeOctets_ok hwritten).1
  · exact .refl t

theorem save_grows (language content : String) : Grows (w.save language p content) :=
  (ensure_grows w).bind fun _ => (writeFile_grows ..).bind fun _ => grows_pure _

theorem saveMirrored_grows (language : String) (fragments : List Fragment) :
    Grows (w.saveMirrored language fragments) := by
  induction fragments with
  | nil => exact grows_pure _
  | cons f rest ih =>
    unfold saveMirrored
    split
    · exact ih
    · exact (save_grows ..).bind fun _ => ih.bind fun _ => grows_pure _

theorem materialize_grows (s : Snippet) : Grows (w.materialize s) :=
  (grows_lift _).bind fun _ => (save_grows ..).bind fun _ => (saveMirrored_grows ..).bind fun _ =>
    grows_get.bind fun _ => (grows_lift _).bind fun _ => grows_pure _

end SnippetRunner.Workspace

namespace SnippetRunner.Interpreters

open Workspace

theorem prepare_grows (i : Interpreters) (engine : Engine) (cwd : Location)
    (language code : String) (workdir : Path) (job : String) (token : Nat) :
    Grows (i.prepare engine cwd language code workdir job token) := by
  unfold prepare
  split
  · exact grows_throw _
  · exact (makeDirectory_grows ..).bind fun _ => (writeFile_grows ..).bind fun _ => grows_pure _

end SnippetRunner.Interpreters
