import Mathlib.Data.List.TakeWhile
import SnippetRunner.Language.BuiltIn
import SnippetRunner.Proofs.Text.LineBreaks
import SnippetRunner.Source.Definition

/-!
What a definition defines can be read off its text: the first line that is no decorator is
its head, and its head defines its name.
-/
namespace SnippetRunner.Source

open Text

def isDecorator (line : String) : Bool :=
  line.toList.head? == some '@'

def headName? (d : Descriptor) (text : String) : Option String :=
  ((splitLines text).dropWhile isDecorator).head?.bind d.definedName?

structure ProperHeads (d : Descriptor) : Prop where
  decorator : ∀ line, isDecorator line = true → d.definedName? line = none
  empty : d.definedName? "" = none

theorem properHeads_python : ProperHeads Language.python := by
  constructor
  · intro line hline
    obtain ⟨rest, hrest⟩ : ∃ rest, line.toList = '@' :: rest := by
      cases hchars : line.toList with
      | nil => simp [isDecorator, hchars] at hline
      | cons c rest => exact ⟨rest, by simpa [isDecorator, hchars] using hline⟩
    simp [Descriptor.definedName?, Language.python, Pattern.matches_, Pattern.read?,
      Pattern.sequence, Pattern.readings, Reading.atStart, hrest, Language.plainName,
      Language.optionalWord, Language.latinStart, Reading.skipWord, CharSet.holds, SetItem.holds]
  · rfl

theorem headName?_joinLines {d : Descriptor} (hd : ProperHeads d) {marks rest : List String}
    {head name : String} (hmarks : ∀ line ∈ marks, isDecorator line = true)
    (hmarks' : ∀ line ∈ marks, Unbroken line.toList) (hhead : Unbroken head.toList)
    (hname : d.definedName? head = some name) :
    headName? d (joinLines (marks ++ head :: rest)) = some name := by
  induction marks with
  | nil =>
    have hproper : isDecorator head = false := by
      rw [← Bool.not_eq_true]
      intro hmark
      rw [hd.decorator head hmark] at hname
      cases hname
    have hfirst : ∃ lines, splitLines (joinLines (head :: rest)) = head :: lines := by
      cases rest with
      | nil =>
        have hne : head ≠ "" := by
          rintro rfl
          rw [hd.empty] at hname
          cases hname
        exact ⟨[], by simpa [joinLines] using splitLines_single hhead hne⟩
      | cons line rest => exact ⟨_, splitLines_joinLines_cons hhead (by simp)⟩
    obtain ⟨lines, hlines⟩ := hfirst
    simp [headName?, hlines, hproper, hname]
  | cons mark marks ih =>
    have hmark := hmarks mark (List.mem_cons_self ..)
    rw [List.cons_append, headName?, splitLines_joinLines_cons
      (hmarks' mark (List.mem_cons_self ..)) (by simp), List.dropWhile_cons_of_pos hmark]
    exact ih (fun line hline => hmarks line (List.mem_cons_of_mem _ hline))
      (fun line hline => hmarks' line (List.mem_cons_of_mem _ hline))

/-- The decorators of a definition are lines above it. -/
theorem mem_decorators {d : Descriptor} {above : List String} {line : String}
    (h : line ∈ decorators d above) : line ∈ above ∧ isDecorator line = true := by
  unfold decorators at h
  split at h
  · refine ⟨(List.takeWhile_sublist _).subset h, ?_⟩
    simpa [isDecorator] using List.mem_takeWhile_imp h
  · simp at h

theorem headName?_of_mem_definitionsFrom {d : Descriptor} (hd : ProperHeads d)
    {above lines : List String} {number : Nat} (habove : ∀ line ∈ above, Unbroken line.toList)
    (hlines : ∀ line ∈ lines, Unbroken line.toList) :
    ∀ e ∈ definitionsFrom d above number lines, headName? d e.text = some e.name := by
  fun_induction definitionsFrom d above number lines with
  | case1 => simp
  | case2 above number line rest name hname himport size block marks ih =>
    intro e he
    rcases List.mem_cons.mp he with rfl | he
    · have hline := hlines line (List.mem_cons_self ..)
      have hblock : ∃ more, block = line :: more := by
        obtain ⟨more, hsize⟩ := Nat.exists_eq_succ_of_ne_zero (blockLength_pos d line rest).ne'
        exact ⟨rest.take more, by simp [block, size, hsize]⟩
      obtain ⟨more, hmore⟩ := hblock
      rw [hmore]
      refine headName?_joinLines hd ?_ ?_ hline hname
      · intro mark hmark
        exact (mem_decorators (List.mem_reverse.mp hmark)).2
      · intro mark hmark
        exact habove mark (mem_decorators (List.mem_reverse.mp hmark)).1
    · refine ih ?_ (fun l hl => hlines l (List.mem_of_mem_drop hl)) e he
      intro l hl
      rcases List.mem_append.mp hl with hl | hl
      · exact hlines l (List.mem_of_mem_take (List.mem_reverse.mp hl))
      · exact habove l hl
  | case3 above number line rest hskip ih =>
    refine ih ?_ (fun l hl => hlines l (List.mem_cons_of_mem _ hl))
    intro l hl
    rcases List.mem_cons.mp hl with rfl | hl
    · exact hlines l (List.mem_cons_self ..)
    · exact habove l hl

theorem headName?_of_mem_definitions {file : SourceFile} (hd : ProperHeads file.descriptor)
    (hlines : ∀ line ∈ file.lines, Unbroken line.toList) :
    ∀ e ∈ file.definitions, headName? file.descriptor e.text = some e.name :=
  headName?_of_mem_definitionsFrom hd (by simp) hlines

end SnippetRunner.Source
