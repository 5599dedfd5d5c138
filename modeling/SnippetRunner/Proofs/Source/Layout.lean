import Mathlib.Data.List.Pairwise
import SnippetRunner.Proofs.Source.Heads

/-!
Where the definitions of a file lie. Each one is found at a head: its lines run from the
decorators directly above the head to the end of the block that begins there, and the search for
the next head goes on below that block. So the definitions are in order, and no line is in two
blocks; what two definitions may share are lines that the block of the first one ends with and
that the second one counts as its decorators.
-/
namespace SnippetRunner.Source

open Text

/-- The definition is found at the line `head`, below the lines `above`. -/
structure Headed (d : Descriptor) (above : List String) (head : String) (below : List String)
    (e : Definition) : Prop where
  proper : d.isImport head = false
  name : d.definedName? head = some e.name
  start : e.start + (decorators d above.reverse).length = above.length + 1
  stop : e.stop = above.length + blockLength d (head :: below)
  text : e.text = joinLines ((decorators d above.reverse).reverse ++
    (head :: below).take (blockLength d (head :: below)))

section Extents

theorem indentExtent_le (depth : Int) (lines : List String) :
    indentExtent depth lines ≤ lines.length := by
  fun_induction indentExtent depth lines with
  | case1 => simp
  | case2 depth line rest hblank hnone ih => simp
  | case3 depth line rest hblank more hmore ih =>
    rw [hmore] at ih
    simp only [List.length_cons]
    omega
  | case4 depth line rest hblank hflush => simp
  | case5 depth line rest hblank hflush ih =>
    simp only [List.length_cons]
    omega

theorem braceExtent_le (d : Descriptor) (isHead opened : Bool) (depth : Int)
    (lines : List String) : braceExtent d isHead opened depth lines ≤ lines.length := by
  fun_induction braceExtent d isHead opened depth lines <;>
    simp only [List.length_nil, List.length_cons] at * <;> omega

theorem blockLength_le (d : Descriptor) (lines : List String) :
    blockLength d lines ≤ lines.length := by
  cases lines with
  | nil => simp [blockLength]
  | cons line rest =>
    simp only [blockLength]
    split
    · have hextent := indentExtent_le (plainDepth .indent line) rest
      simp only [List.length_cons]
      omega
    · exact braceExtent_le d true false 0 (line :: rest)

theorem length_take_blockLength (d : Descriptor) (lines : List String) :
    (lines.take (blockLength d lines)).length = blockLength d lines := by
  rw [List.length_take]
  exact min_eq_left (blockLength_le d lines)

end Extents

section Marks

variable {d : Descriptor}

theorem length_le_takeWhile_iff {α : Type} {p : α → Bool} (front rest : List α) :
    front.length ≤ ((front ++ rest).takeWhile p).length ↔ ∀ x ∈ front, p x = true := by
  induction front with
  | nil => simp
  | cons a front ih =>
    rw [List.cons_append, List.takeWhile_cons]
    by_cases ha : p a = true
    · simpa [ha] using ih
    · simp [ha]

theorem decorators_of_indent (hstyle : d.blockStyle = .indent) (above : List String) :
    decorators d above = above.takeWhile isDecorator := by
  simp only [decorators, hstyle]
  rfl

/-- Lines right above a head are among its decorators just if each of them starts with an at
sign. -/
theorem length_le_decorators_iff {upper marks : List String} (hmarks : marks ≠ []) :
    marks.length ≤ (decorators d (upper ++ marks).reverse).length ↔
      d.blockStyle = .indent ∧ ∀ mark ∈ marks, isDecorator mark = true := by
  have hlength : 0 < marks.length := List.length_pos_iff.mpr hmarks
  cases hstyle : d.blockStyle with
  | braces =>
    simp only [decorators, hstyle, List.length_nil, reduceCtorEq, false_and, iff_false]
    omega
  | indent =>
    have hfront := length_le_takeWhile_iff (p := isDecorator) marks.reverse upper.reverse
    simpa [decorators_of_indent hstyle] using hfront

theorem decorators_eq_take (above : List String) :
    decorators d above = above.take (decorators d above).length := by
  unfold decorators
  split
  · exact List.prefix_iff_eq_take.mp (List.takeWhile_prefix _)
  · simp

theorem length_decorators_le (above : List String) :
    (decorators d above).length ≤ above.length := by
  rw [decorators_eq_take above, List.length_take]
  exact Nat.min_le_right _ _

end Marks

section Places

variable {d : Descriptor} {above below : List String} {head : String} {e : Definition}

theorem Headed.start_pos (h : Headed d above head below e) : 1 ≤ e.start := by
  have hmarks := length_decorators_le (d := d) above.reverse
  have hstart := h.start
  rw [List.length_reverse] at hmarks
  omega

theorem Headed.start_le (h : Headed d above head below e) : e.start ≤ above.length + 1 := by
  have hstart := h.start
  omega

theorem Headed.lt_stop (h : Headed d above head below e) : above.length < e.stop := by
  have hpos := blockLength_pos d head below
  have hstop := h.stop
  omega

theorem Headed.stop_le (h : Headed d above head below e) :
    e.stop ≤ (above ++ head :: below).length := by
  have hlength := blockLength_le d (head :: below)
  have hstop := h.stop
  rw [List.length_append]
  omega

/-- A definition reaches up to some lines above its head just if there are decorators only from them
on down to the head. -/
theorem Headed.reaches_iff {upper marks : List String}
    (h : Headed d (upper ++ marks) head below e) (hmarks : marks ≠ []) :
    e.start ≤ upper.length + 1 ↔
      d.blockStyle = .indent ∧ ∀ mark ∈ marks, isDecorator mark = true := by
  have hstart := h.start
  rw [List.length_append] at hstart
  have hreach : marks.length ≤ (decorators d (upper ++ marks).reverse).length ↔ _ :=
    length_le_decorators_iff hmarks
  rw [← hreach]
  omega

theorem Headed.start_le_iff (h : Headed d above head below e) {n : Nat} (hn : n < above.length) :
    e.start ≤ n + 1 ↔
      d.blockStyle = .indent ∧ ∀ mark ∈ above.drop n, isDecorator mark = true := by
  have hlength : (above.take n).length = n := by
    rw [List.length_take]
    omega
  rw [← List.take_append_drop n above] at h
  have hreaches := h.reaches_iff (by
    rw [← List.length_pos_iff, List.length_drop]
    omega)
  rwa [hlength] at hreaches

/-- The text of a definition is that of its lines. -/
theorem Headed.text_eq (h : Headed d above head below e) :
    e.text = joinLines (((above ++ head :: below).take e.stop).drop (e.start - 1)) := by
  have hmarks := length_decorators_le (d := d) above.reverse
  rw [List.length_reverse] at hmarks
  have hfirst : above.length - (decorators d above.reverse).length = e.start - 1 := by
    have hstart := h.start
    omega
  have hreverse : (decorators d above.reverse).reverse = above.drop (e.start - 1) := by
    rw [decorators_eq_take, List.reverse_take, List.reverse_reverse, List.length_reverse, hfirst]
  have hinside : e.start - 1 ≤ above.length := by
    have hstart := h.start_le
    omega
  have hdrop : (above ++ (head :: below).take (blockLength d (head :: below))).drop (e.start - 1) =
      above.drop (e.start - 1) ++ (head :: below).take (blockLength d (head :: below)) :=
    List.drop_append_of_le_length hinside
  have htake : (above ++ head :: below).take e.stop =
      above ++ (head :: below).take (blockLength d (head :: below)) := by
    rw [h.stop, List.take_length_add_append]
  rw [h.text, hreverse, htake, hdrop]

end Places

section Search

variable {d : Descriptor} {above lines : List String} {number : Nat}

/-- Each definition has its head among the lines that are searched. -/
theorem headed_of_mem_definitionsFrom (hnumber : number = above.length + 1) :
    ∀ e ∈ definitionsFrom d above number lines, ∃ upper head below,
      lines = upper ++ head :: below ∧ Headed d (above.reverse ++ upper) head below e := by
  fun_induction definitionsFrom d above number lines with
  | case1 => simp
  | case2 above number line rest name hname himport size block marks ih =>
    intro e he
    rcases List.mem_cons.mp he with rfl | he
    · have hmarks : marks.length ≤ above.length := length_decorators_le above
      refine ⟨[], line, rest, rfl, himport, hname, ?_, ?_, ?_⟩
      · simp only [List.append_nil, List.reverse_reverse, List.length_reverse]
        change number - marks.length + marks.length = above.length + 1
        omega
      · change number + size - 1 = (above.reverse ++ []).length + size
        simp only [List.append_nil, List.length_reverse]
        omega
      · simp [block, size, marks]
    · have hblock : block.length = size := length_take_blockLength d (line :: rest)
      have hfurther : number + size = (block.reverse ++ above).length + 1 := by
        simp only [List.length_append, List.length_reverse]
        omega
      obtain ⟨upper, head, below, hlines, hheaded⟩ := ih hfurther e he
      refine ⟨block ++ upper, head, below, ?_, ?_⟩
      · rw [List.append_assoc, ← hlines]
        exact (List.take_append_drop size (line :: rest)).symm
      · simpa using hheaded
  | case3 above number line rest hskip ih =>
    intro e he
    obtain ⟨upper, head, below, hlines, hheaded⟩ := ih (by simp [hnumber]) e he
    exact ⟨line :: upper, head, below, by rw [hlines, List.cons_append], by simpa using hheaded⟩

/-- A later definition has its head below the block of an earlier one. -/
theorem definitionsFrom_apart (hnumber : number = above.length + 1) :
    (definitionsFrom d above number lines).Pairwise fun a b => ∃ upper head below,
      lines = upper ++ head :: below ∧ Headed d (above.reverse ++ upper) head below b ∧
        a.stop ≤ (above.reverse ++ upper).length := by
  fun_induction definitionsFrom d above number lines with
  | case1 => exact List.Pairwise.nil
  | case2 above number line rest name hname himport size block marks ih =>
    have hblock : block.length = size := length_take_blockLength d (line :: rest)
    have hfurther : number + size = (block.reverse ++ above).length + 1 := by
      simp only [List.length_append, List.length_reverse]
      omega
    have hsplit : block ++ (line :: rest).drop size = line :: rest :=
      List.take_append_drop size (line :: rest)
    refine List.pairwise_cons.mpr ⟨?_, (ih hfurther).imp ?_⟩
    · intro b hb
      obtain ⟨upper, head, below, hlines, hheaded⟩ := headed_of_mem_definitionsFrom hfurther b hb
      refine ⟨block ++ upper, head, below, ?_, by simpa using hheaded, ?_⟩
      · rw [List.append_assoc, ← hlines, hsplit]
      · simp only [List.length_append, List.length_reverse]
        omega
    · rintro a b ⟨upper, head, below, hlines, hheaded, hstop⟩
      refine ⟨block ++ upper, head, below, ?_, by simpa using hheaded, by simpa using hstop⟩
      rw [List.append_assoc, ← hlines, hsplit]
  | case3 above number line rest hskip ih =>
    refine (ih (by simp [hnumber])).imp ?_
    rintro a b ⟨upper, head, below, hlines, hheaded, hstop⟩
    exact ⟨line :: upper, head, below, by rw [hlines, List.cons_append], by simpa using hheaded,
      by simpa using hstop⟩

end Search

def Precedes (file : SourceFile) (a b : Definition) : Prop :=
  ∃ above head below, file.lines = above ++ head :: below ∧
    Headed file.descriptor above head below b ∧ a.stop ≤ above.length

/-- The block of the first definition ends with a line that starts with an at sign, and only such
lines stand between it and the head of the second one, which counts them all as decorators. -/
def SharesMarks (file : SourceFile) (a b : Definition) : Prop :=
  file.descriptor.blockStyle = .indent ∧ ∃ upper marks head below,
    file.lines = upper ++ marks ++ head :: below ∧
      Headed file.descriptor (upper ++ marks) head below b ∧
      a.stop = upper.length + 1 ∧ marks ≠ [] ∧ ∀ mark ∈ marks, isDecorator mark = true

def Swallows (file : SourceFile) (a b : Definition) : Prop :=
  file.descriptor.blockStyle = .indent ∧ ∃ upper marks head below,
    file.lines = upper ++ marks ++ head :: below ∧
      Headed file.descriptor (upper ++ marks) head below b ∧ a.start = upper.length + 1 ∧
      a.stop ≤ upper.length + marks.length ∧ ∀ mark ∈ marks, isDecorator mark = true

def MarksApart (d : Descriptor) : Prop :=
  d.blockStyle = .indent → ∀ line, isDecorator line = true → d.definedName? line = none

section Files

variable {file : SourceFile} {a b e : Definition}

theorem headed_of_mem (he : e ∈ file.definitions) : ∃ above head below,
    file.lines = above ++ head :: below ∧ Headed file.descriptor above head below e := by
  have hnumber : 1 = ([] : List String).length + 1 := rfl
  simpa using headed_of_mem_definitionsFrom hnumber e he

/-- A definition takes some lines of its file, and its text is that of those lines. -/
theorem lines_of_mem (he : e ∈ file.definitions) :
    1 ≤ e.start ∧ e.start ≤ e.stop ∧ e.stop ≤ file.length ∧
      e.text = joinLines ((file.lines.take e.stop).drop (e.start - 1)) := by
  obtain ⟨above, head, below, hlines, hheaded⟩ := headed_of_mem he
  have hstart := hheaded.start_le
  have hstop := hheaded.lt_stop
  refine ⟨hheaded.start_pos, by omega, ?_, ?_⟩
  · rw [SourceFile.length, hlines]
    exact hheaded.stop_le
  · rw [hlines]
    exact hheaded.text_eq

theorem definitions_apart (file : SourceFile) : file.definitions.Pairwise (Precedes file) := by
  have hnumber : 1 = ([] : List String).length + 1 := rfl
  refine (definitionsFrom_apart hnumber).imp ?_
  intro a b hab
  simpa [Precedes] using hab

theorem precedes_or_precedes (ha : a ∈ file.definitions) (hb : b ∈ file.definitions)
    (hne : a ≠ b) : Precedes file a b ∨ Precedes file b a := by
  have heither : file.definitions.Pairwise fun a b => Precedes file a b ∨ Precedes file b a :=
    (definitions_apart file).imp Or.inl
  have hsymm : Std.Symm fun a b => Precedes file a b ∨ Precedes file b a :=
    ⟨fun _ _ h => h.symm⟩
  exact heither.forall ha hb hne

theorem Precedes.overlap_iff (h : Precedes file a b) :
    b.start ≤ a.stop ↔ SharesMarks file a b := by
  obtain ⟨above, head, below, hlines, hheaded, hbelow⟩ := h
  have hpos := hheaded.start_pos
  constructor
  · intro hoverlap
    have hstart := hheaded.start_le
    by_cases hstop : a.stop = 0
    · omega
    obtain ⟨hstyle, hall⟩ := (hheaded.start_le_iff (n := a.stop - 1) (by omega)).mp (by omega)
    have hsplit : above.take (a.stop - 1) ++ above.drop (a.stop - 1) = above :=
      List.take_append_drop ..
    refine ⟨hstyle, above.take (a.stop - 1), above.drop (a.stop - 1), head, below, ?_, ?_, ?_,
      ?_, hall⟩
    · rw [hsplit, hlines]
    · rwa [hsplit]
    · rw [List.length_take]
      omega
    · rw [← List.length_pos_iff, List.length_drop]
      omega
  · rintro ⟨hstyle, upper, marks, head', below', -, hheaded', hstop, hmarks, hall⟩
    have hreach := (hheaded'.reaches_iff hmarks).mpr ⟨hstyle, hall⟩
    omega

/-- The lines above an earlier head are also above a later one. -/
theorem Precedes.lines_above (ha : a ∈ file.definitions) (h : Precedes file a b) :
    ∃ above above' head head' below below',
      file.lines = above ++ head :: below ∧ Headed file.descriptor above head below b ∧
        Headed file.descriptor above' head' below' a ∧ a.stop ≤ above.length ∧
        above' ++ [head'] <+: above := by
  obtain ⟨above', head', below', hlines', hheaded'⟩ := headed_of_mem ha
  obtain ⟨above, head, below, hlines, hheaded, hbelow⟩ := h
  have hlower := hheaded'.lt_stop
  refine ⟨above, above', head, head', below, below', hlines, hheaded, hheaded', hbelow, ?_⟩
  have hfirst : above' ++ [head'] <+: file.lines :=
    ⟨below', by rw [hlines', List.append_assoc, List.singleton_append]⟩
  have hsecond : above <+: file.lines := ⟨head :: below, hlines.symm⟩
  refine List.prefix_of_prefix_length_le hfirst hsecond ?_
  rw [List.length_append, List.length_singleton]
  omega

/-- No definition starts above an earlier one, whose own decorators reach up as far as its do. -/
theorem Precedes.start_le (ha : a ∈ file.definitions) (h : Precedes file a b) :
    a.start ≤ b.start := by
  obtain ⟨above, above', head, head', below, below', -, hheaded, hheaded', hbelow, more, rfl⟩ :=
    h.lines_above ha
  have hpos := hheaded.start_pos
  have hfirst := hheaded'.start_le
  by_contra hnot
  have hn : b.start - 1 < above'.length := by omega
  have hreach := (hheaded.start_le_iff (n := b.start - 1) (by
    simp only [List.length_append]
    omega)).mp (by omega)
  have hdrop : (above' ++ [head'] ++ more).drop (b.start - 1) =
      above'.drop (b.start - 1) ++ ([head'] ++ more) := by
    rw [List.append_assoc, List.drop_append_of_le_length (by omega)]
  rw [hdrop] at hreach
  have hreach' := (hheaded'.start_le_iff hn).mpr
    ⟨hreach.1, fun mark hmark => hreach.2 mark (List.mem_append_left _ hmark)⟩
  omega

/-- A definition starts with the same line as an earlier one just if it swallows it. -/
theorem Precedes.start_eq_iff (ha : a ∈ file.definitions) (h : Precedes file a b) :
    a.start = b.start ↔ Swallows file a b := by
  have hle := h.start_le ha
  obtain ⟨hfirst, hordered, -, -⟩ := lines_of_mem ha
  obtain ⟨above, head, below, hlines, hheaded, hbelow⟩ := h
  constructor
  · intro hsame
    obtain ⟨hstyle, hall⟩ := (hheaded.start_le_iff (n := a.start - 1) (by omega)).mp (by omega)
    have hsplit : above.take (a.start - 1) ++ above.drop (a.start - 1) = above :=
      List.take_append_drop ..
    refine ⟨hstyle, above.take (a.start - 1), above.drop (a.start - 1), head, below, ?_, ?_, ?_,
      ?_, hall⟩
    · rw [hsplit, hlines]
    · rwa [hsplit]
    · rw [List.length_take]
      omega
    · rwa [← List.length_append, hsplit]
  · rintro ⟨hstyle, upper, marks, head', below', -, hheaded', hstart, hstop, hall⟩
    have hmarks : marks ≠ [] := by
      rw [← List.length_pos_iff]
      omega
    have hreach := (hheaded'.reaches_iff hmarks).mpr ⟨hstyle, hall⟩
    omega

theorem Swallows.precedes (h : Swallows file a b) : Precedes file a b := by
  obtain ⟨-, upper, marks, head, below, hlines, hheaded, -, hstop, -⟩ := h
  exact ⟨upper ++ marks, head, below, hlines, hheaded, by rwa [List.length_append]⟩

/-- Of two definitions that start with the same line one swallows the other. -/
theorem start_eq_iff_swallows (ha : a ∈ file.definitions) (hb : b ∈ file.definitions)
    (hne : a ≠ b) : a.start = b.start ↔ Swallows file a b ∨ Swallows file b a := by
  constructor
  · intro hsame
    rcases precedes_or_precedes ha hb hne with hab | hba
    · exact Or.inl ((hab.start_eq_iff ha).mp hsame)
    · exact Or.inr ((hba.start_eq_iff hb).mp hsame.symm)
  · rintro (hab | hba)
    · exact (hab.precedes.start_eq_iff ha).mpr hab
    · exact ((hba.precedes.start_eq_iff hb).mpr hba).symm

/-- What a definition swallows has a decorator for its head. -/
theorem not_swallows (hd : MarksApart file.descriptor) (ha : a ∈ file.definitions) :
    ¬ Swallows file a b := by
  intro hswallows
  obtain ⟨hstyle, -⟩ := id hswallows
  have h := hswallows.precedes
  have hsame := (h.start_eq_iff ha).mpr hswallows
  obtain ⟨above, above', head, head', below, below', -, hheaded, hheaded', -, more, rfl⟩ :=
    h.lines_above ha
  have hfirst := hheaded'.start_le
  have hreach := (hheaded.start_le_iff (n := above'.length) (by simp)).mp (by omega)
  have hmark : isDecorator head' = true := hreach.2 head' (by simp)
  have hname := hheaded'.name
  rw [hd hstyle head' hmark] at hname
  cases hname

/-- A later definition also starts later, whatever its decorators are: the head of the earlier one
is none of them. -/
theorem Precedes.start_lt_of_marksApart (hd : MarksApart file.descriptor)
    (ha : a ∈ file.definitions) (h : Precedes file a b) : a.start < b.start :=
  lt_of_le_of_ne (h.start_le ha) ((h.start_eq_iff ha).not.mpr (not_swallows hd ha))

theorem Precedes.start_lt (hd : file.descriptor.blockStyle = .indent → ProperHeads file.descriptor)
    (ha : a ∈ file.definitions) (h : Precedes file a b) : a.start < b.start :=
  h.start_lt_of_marksApart (fun hstyle => (hd hstyle).decorator) ha

theorem Precedes.stop_lt (h : Precedes file a b) : a.stop < b.stop := by
  obtain ⟨above, head, below, -, hheaded, hbelow⟩ := h
  have hlower := hheaded.lt_stop
  omega

end Files

/-- The only built-in language with indented blocks reads no head off a decorator. -/
theorem properHeads_of_builtIn {d : Descriptor} (hd : d ∈ Language.builtIn)
    (hstyle : d.blockStyle = .indent) : ProperHeads d := by
  have hpython : d = Language.python := by
    revert hstyle
    revert d
    decide
  rw [hpython]
  exact properHeads_python

/-- The definitions of a file are ordered by where they start and by where they stop, and the
text of each is that of its lines. Two of them share a line just if the block of one ends with a
line that starts with an at sign and that the next one counts as its decorator. -/
theorem definitions_disjoint_iff {file : SourceFile} (hd : file.descriptor ∈ Language.builtIn) :
    (file.definitions.Pairwise fun a b => a.start < b.start ∧ a.stop < b.stop) ∧
      (∀ e ∈ file.definitions, 1 ≤ e.start ∧ e.start ≤ e.stop ∧ e.stop ≤ file.length ∧
        e.text = joinLines ((file.lines.take e.stop).drop (e.start - 1))) ∧
      ((file.definitions.Pairwise fun a b => a.stop < b.start) ↔
        file.definitions.Pairwise fun a b => ¬ SharesMarks file a b) := by
  have hheads := properHeads_of_builtIn hd
  have happart := definitions_apart file
  refine ⟨?_, ?_, ?_⟩
  · refine happart.imp_of_mem ?_
    intro a b ha _ hab
    exact ⟨hab.start_lt hheads ha, hab.stop_lt⟩
  · intro e he
    obtain ⟨above, head, below, hlines, hheaded⟩ := headed_of_mem he
    have hstart := hheaded.start_le
    have hstop := hheaded.lt_stop
    refine ⟨hheaded.start_pos, by omega, ?_, ?_⟩
    · rw [SourceFile.length, hlines]
      exact hheaded.stop_le
    · rw [hlines]
      exact hheaded.text_eq
  · constructor
    · intro hdisjoint
      refine (happart.and hdisjoint).imp ?_
      rintro a b ⟨hab, hless⟩ hshares
      have hoverlap := hab.overlap_iff.mpr hshares
      omega
    · intro hnone
      refine (happart.and hnone).imp ?_
      rintro a b ⟨hab, hshares⟩
      by_contra hoverlap
      exact hshares (hab.overlap_iff.mp (by omega))

section ClosingLine

/-- The list that is closed in the second line goes on there with an operator that is an at
sign. -/
private def closedByMark : SourceFile :=
  ⟨⟨.root, ["a.py"]⟩, Language.python, ["x = [1", "@y]", "def f():", "    return x"]⟩

private theorem definitions_closedByMark : closedByMark.definitions =
    [⟨"x", 1, 2, "x = [1\n@y]"⟩, ⟨"f", 2, 4, "@y]\ndef f():\n    return x"⟩] := by
  have hheads : Language.python.isImport "x = [1" = false ∧
      Language.python.definedName? "x = [1" = some "x" ∧
      Language.python.isImport "def f():" = false ∧
      Language.python.definedName? "def f():" = some "f" := by decide
  have hlist : blockLength Language.python closedByMark.lines = 2 := by decide +kernel
  have hfunction : blockLength Language.python ["def f():", "    return x"] = 2 := by
    decide +kernel
  simp only [closedByMark] at hlist
  simp [SourceFile.definitions, closedByMark, definitionsFrom, hheads, hlist, hfunction]
  decide

/-- The second line belongs to the list, and to the function below as if it were a decorator. -/
theorem definitions_disjoint_iff_closedByMark :
    Language.python ∈ Language.builtIn ∧
      closedByMark.definitions =
        [⟨"x", 1, 2, "x = [1\n@y]"⟩, ⟨"f", 2, 4, "@y]\ndef f():\n    return x"⟩] ∧
      ¬ (closedByMark.definitions.Pairwise fun a b => a.stop < b.start) ∧
      ¬ closedByMark.definitions.Pairwise fun a b => ¬ SharesMarks closedByMark a b := by
  have hd : Language.python ∈ Language.builtIn := by decide
  have hoverlap : ¬ (closedByMark.definitions.Pairwise fun a b => a.stop < b.start) := by
    rw [definitions_closedByMark]
    decide
  have hd' : closedByMark.descriptor ∈ Language.builtIn := hd
  obtain ⟨-, -, hiff⟩ := definitions_disjoint_iff hd'
  exact ⟨hd, definitions_closedByMark, hoverlap, fun hnone => hoverlap (hiff.mpr hnone)⟩

end ClosingLine

end SnippetRunner.Source
