import SnippetRunner.Output.Sink
import SnippetRunner.Proofs.FileTree.Refusals

/-!
What publishing adds. Records are numbered in the order of publication, so that after one
publication just the new record has a number above the last one before it. Publishing fails
only if the path of the output file has no name or cannot be passed to the file tree.
-/
namespace SnippetRunner.Sink

def Numbered (s : Sink) : Prop :=
  ∀ r ∈ s.records, r.seq ≤ s.seq

/-- Publishing to an output file never fails, whatever is published and when. -/
def Publishes (path : Option Path) : Prop :=
  ∀ (s : Sink) (h : Host) (result : JobResult), s.path = path →
    ∃ record, (s.publish h result).2.2 = .ok record

theorem since_seq {s : Sink} (h : s.Numbered) : s.since s.seq = [] := by
  apply List.filter_eq_nil_iff.mpr
  intro r hr
  have hle := h r hr
  simp only [decide_eq_true_eq]
  omega

theorem keepLast_append_single {α : Type} {n : Nat} (hn : 1 ≤ n) (items : List α) (last : α) :
    ∃ kept, keepLast n (items ++ [last]) = kept ++ [last] ∧ ∀ item ∈ kept, item ∈ items := by
  refine ⟨items.drop ((items ++ [last]).length - n), ?_, fun item h => List.mem_of_mem_drop h⟩
  rw [keepLast, List.drop_append_of_le_length]
  rw [List.length_append, List.length_singleton]
  omega

theorem enter_records (s : Sink) (result : JobResult) (now : Moment) :
    ∃ kept, (s.enter result now).1.records = kept ++ [(s.enter result now).2] ∧
      ∀ r ∈ kept, r ∈ s.records := by
  have hcapacity : 1 ≤ s.capacity := by
    unfold capacity
    omega
  exact keepLast_append_single hcapacity s.records _

/-- A publication that succeeds enters one record, with the next number. -/
theorem publish_ok {s : Sink} {h : Host} {result : JobResult} {record : OutputRecord}
    (hnum : s.Numbered) (hok : (s.publish h result).2.2 = .ok record) :
    (s.publish h result).1.Numbered ∧ (s.publish h result).1.path = s.path ∧
      (s.publish h result).1.since s.seq = [record] ∧ record.result = result := by
  obtain ⟨kept, hkept, hold⟩ := enter_records s result h.now
  have hsplit : (s.publish h result).1 = (s.enter result h.now).1.tell record ∧
      record = (s.enter result h.now).2 := by
    unfold publish at hok ⊢
    dsimp only at hok ⊢
    split at hok
    · cases hok
    · cases hok
      exact ⟨rfl, rfl⟩
  obtain ⟨hsink, hrecord⟩ := hsplit
  have hrecords : (s.publish h result).1.records = kept ++ [record] := by
    rw [hsink, hrecord]
    exact hkept
  have hnumber : record.seq = s.seq + 1 := by
    rw [hrecord]
    rfl
  have hbelow : ∀ r ∈ kept, r.seq ≤ s.seq := fun r hr => hnum r (hold r hr)
  refine ⟨?_, by rw [hsink]; rfl, ?_, by rw [hrecord]; rfl⟩
  · intro r hr
    have hseq : (s.publish h result).1.seq = s.seq + 1 := by
      rw [hsink]
      rfl
    rw [hrecords] at hr
    rw [hseq]
    rcases List.mem_append.mp hr with hr | hr
    · have hle := hbelow r hr
      omega
    · have hlast : r.seq = s.seq + 1 := by rw [List.mem_singleton.mp hr, hnumber]
      omega
  · have hnone : kept.filter (fun r => decide ((s.seq : Int) < (r.seq : Int))) = [] := by
      apply List.filter_eq_nil_iff.mpr
      intro r hr
      have hle := hbelow r hr
      simp only [decide_eq_true_eq]
      omega
    have hnew : s.seq < record.seq := by omega
    rw [since, hrecords, List.filter_append, hnone]
    simp [hnew]

theorem publishes_none : Publishes none := by
  intro s h result hpath
  refine ⟨(s.enter result h.now).2, ?_⟩
  have hstore : (s.enter result h.now).1.path = none := hpath
  simp [publish, store, hstore]

theorem writeFile_fault {t : FileTree} {cwd : Location} {path scratch : Path} {text : String}
    {fault : FileFault} (hpath : path.hasNul = false) (hscratch : scratch.hasNul = false)
    (h : (writeFile t cwd path scratch text).2 = some fault) : fault.error ≠ .nullByte := by
  unfold writeFile at h
  split at h
  · rename_i made hmade
    cases h
    exact FileTree.makeDirectories_fault (FileTree.hasNul_parent hpath) (by rw [hmade])
  · split at h
    · rename_i hwrite
      cases h
      exact FileTree.writeOctets_error hscratch hwrite
    · split at h
      · cases h
      · rename_i hreplace
        cases h
        exact FileTree.replaceFile_error hscratch hpath hreplace

/-- An output file with a name and without a NUL refuses no record. -/
theorem publishes_some {path scratch : Path} (hpath : path.hasNul = false)
    (hscratch : path.withSuffix? ".tmp" = some scratch) : Publishes (some path) := by
  intro s h result hsink
  have hstore : ∃ h', (s.enter result h.now).1.store h (s.enter result h.now).2 = (h', .ok ()) := by
    have hfile : (s.enter result h.now).1.path = some path := hsink
    simp only [store, hfile, hscratch]
    split
    · exact ⟨_, rfl⟩
    · rename_i fault hfault
      have hsystem : fault.error.isSystem := by
        have hne := writeFile_fault hpath
          (FileTree.hasNul_withSuffix hpath (by decide) hscratch) hfault
        simpa [FileError.isSystem] using hne
      rw [if_pos hsystem]
      exact ⟨_, rfl⟩
  obtain ⟨h', hstore⟩ := hstore
  refine ⟨(s.enter result h.now).2, ?_⟩
  simp only [publish, hstore]

end SnippetRunner.Sink
