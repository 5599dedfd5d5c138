import Mathlib.Data.List.Forall2
import Mathlib.Data.List.TakeWhile
import SnippetRunner.Proofs.Text.EditorLines

/-!
Margins of spaces and tabs. The margin that lines share is the longest one that all of them
that hold more than a margin begin with. To widen the margin of each of these lines widens what
they share by as much, and so the dedented lines stay as they are.
-/
namespace SnippetRunner.Text

/-- Spaces and tabs alone. -/
def IsMargin (s : String) : Prop :=
  isMarginOnly s.toList = true

instance (s : String) : Decidable (IsMargin s) :=
  inferInstanceAs (Decidable (_ = true))

def BehindMargin (margin line plain : String) : Prop :=
  (IsMargin line ∧ plain = "") ∨ (¬ IsMargin line ∧ line = margin ++ plain)

/-- Lines without their margin: the longest one that each of them begins with, but for those
that hold no more than a margin. -/
structure Dedented (lines : List String) (margin : String) (plain : List String) : Prop where
  isMargin : IsMargin margin
  behind : List.Forall₂ (BehindMargin margin) lines plain
  longest : ∀ m, IsMargin m → (∃ line ∈ lines, ¬ IsMargin line) →
    (∀ line ∈ lines, ¬ IsMargin line → ∃ rest, line = m ++ rest) → ∃ rest, margin = m ++ rest

def indentChars (w line : List Char) : List Char :=
  if isMarginOnly line then line else w ++ line

def indentNumbered (w : List Char) (first last : Int) (k : Nat) (line : List Char) : List Char :=
  if first ≤ k ∧ k ≤ last then indentChars w line else line

/-- The text with a further margin at each of the lines `first..last`, when `k` is the number
of its first line. -/
def indentFrom (w : List Char) (first last : Int) (k : Nat) (cs : List Char) : List Char :=
  let line := indentNumbered w first last k (cs.takeWhile (!isLineBreak ·))
  match _hrest : cs.dropWhile (!isLineBreak ·) with
  | [] => line
  | mark :: rest => line ++ mark :: indentFrom w first last (k + 1) rest
termination_by cs.length
decreasing_by
  have hdrop := List.length_dropWhile_le (!isLineBreak ·) cs
  rw [_hrest, List.length_cons] at hdrop
  omega

/-- The text with a further margin at each of the lines `first..last` that holds more than one. -/
def indentRange (w : String) (first last : Int) (text : String) : String :=
  String.ofList (indentFrom w.toList first last 1 text.toList)

section Prefixes

theorem prefix_commonPrefix_iff {p as bs : List Char} :
    p <+: commonPrefix as bs ↔ p <+: as ∧ p <+: bs := by
  induction as, bs using commonPrefix.induct generalizing p with
  | case1 a as b bs heq ih =>
    obtain rfl : a = b := by simpa using heq
    cases p with
    | nil => simp
    | cons c p =>
      simp only [commonPrefix, beq_self_eq_true, if_true, List.cons_prefix_cons, ih]
      tauto
  | case2 a as b bs hne =>
    have hab : a ≠ b := by simpa using hne
    cases p with
    | nil => simp
    | cons c p =>
      simp only [commonPrefix, hne, List.cons_prefix_cons]
      grind
  | case3 as bs hnil =>
    cases as with
    | nil => simp +contextual [commonPrefix]
    | cons a as =>
      cases bs with
      | nil => simp +contextual [commonPrefix]
      | cons b bs => exact absurd rfl (hnil a as b bs rfl)

theorem prefix_foldl_commonPrefix_iff {p first : List Char} {others : List (List Char)} :
    p <+: others.foldl commonPrefix first ↔ p <+: first ∧ ∀ l ∈ others, p <+: l := by
  induction others generalizing first with
  | nil => simp
  | cons l others ih =>
    rw [List.foldl_cons, ih, prefix_commonPrefix_iff, List.forall_mem_cons, and_assoc]

theorem prefix_takeWhile_iff {p l : List Char} {f : Char → Bool} :
    p <+: l.takeWhile f ↔ p.all f = true ∧ p <+: l := by
  induction l generalizing p with
  | nil => simp +contextual
  | cons c l ih =>
    cases p with
    | nil => simp
    | cons d p =>
      by_cases hc : f c = true
      · simp only [List.takeWhile_cons_of_pos hc, List.cons_prefix_cons, ih, List.all_cons,
          Bool.and_eq_true]
        grind
      · simp only [List.takeWhile_cons_of_neg hc, List.prefix_nil, List.cons_prefix_cons,
          List.all_cons, Bool.and_eq_true]
        grind

/-- What the lines share is the longest margin that all of them begin with that hold more. -/
theorem prefix_sharedMargin_iff {p : List Char} {lines : List (List Char)}
    (h : ∃ l ∈ lines, isMarginOnly l = false) :
    p <+: sharedMargin lines ↔
      isMarginOnly p = true ∧ ∀ l ∈ lines, isMarginOnly l = false → p <+: l := by
  have hmem : ∀ l, l ∈ lines.filter (fun l => !isMarginOnly l) ↔
      l ∈ lines ∧ isMarginOnly l = false := by
    simp
  unfold sharedMargin
  cases hfilter : lines.filter fun l => !isMarginOnly l with
  | nil =>
    obtain ⟨l, hl⟩ := h
    rw [← hmem, hfilter] at hl
    cases hl
  | cons first others =>
    simp only [hfilter] at hmem
    simp only [List.map_cons, prefix_foldl_commonPrefix_iff, List.forall_mem_map,
      prefix_takeWhile_iff]
    constructor
    · rintro ⟨⟨hp, hfirst⟩, hothers⟩
      refine ⟨hp, fun l hl hmore => ?_⟩
      rcases List.mem_cons.mp ((hmem l).mpr ⟨hl, hmore⟩) with rfl | hl
      · exact hfirst
      · exact (hothers l hl).2
    · rintro ⟨hp, hall⟩
      have hprefix : ∀ l ∈ first :: others, p <+: l := fun l hl =>
        hall l ((hmem l).mp hl).1 ((hmem l).mp hl).2
      exact ⟨⟨hp, hprefix first (List.mem_cons_self ..)⟩, fun l hl =>
        ⟨hp, hprefix l (List.mem_cons_of_mem _ hl)⟩⟩

end Prefixes

section Dedenting

variable {lines : List (List Char)} {w : List Char}

theorem isMarginOnly_append (p l : List Char) :
    isMarginOnly (p ++ l) = (isMarginOnly p && isMarginOnly l) := by
  simp [isMarginOnly]

theorem isMarginOnly_indentChars (hw : isMarginOnly w = true) (line : List Char) :
    isMarginOnly (indentChars w line) = isMarginOnly line := by
  unfold indentChars
  split <;> simp [isMarginOnly_append, hw]

/-- Lines with a further margin share just so much more. -/
theorem sharedMargin_indented (hw : isMarginOnly w = true)
    (h : ∃ l ∈ lines, isMarginOnly l = false) :
    sharedMargin (lines.map (indentChars w)) = w ++ sharedMargin lines := by
  have hindented : ∀ l, isMarginOnly l = false → indentChars w l = w ++ l := by
    intro l hl
    simp [indentChars, hl]
  have hmore : ∃ l ∈ lines.map (indentChars w), isMarginOnly l = false := by
    obtain ⟨l, hl, hmore⟩ := h
    exact ⟨_, List.mem_map_of_mem hl, by rwa [isMarginOnly_indentChars hw]⟩
  have hiff : ∀ p, p <+: sharedMargin (lines.map (indentChars w)) ↔
      isMarginOnly p = true ∧ ∀ l ∈ lines, isMarginOnly l = false → p <+: w ++ l := by
    intro p
    rw [prefix_sharedMargin_iff hmore, List.forall_mem_map]
    refine and_congr_right fun _ => forall₂_congr fun l _ => ?_
    rw [isMarginOnly_indentChars hw]
    exact forall_congr' fun hl => by rw [hindented l hl]
  have hshared := (prefix_sharedMargin_iff h).mp List.prefix_rfl
  have hlower : w ++ sharedMargin lines <+: sharedMargin (lines.map (indentChars w)) := by
    refine (hiff _).mpr ⟨?_, fun l hl hl' => ?_⟩
    · simp [isMarginOnly_append, hw, hshared.1]
    · exact (List.prefix_append_right_inj w).mpr (hshared.2 l hl hl')
  -- What is shared now begins with the further margin, and the rest of it was shared before.
  have hupper : sharedMargin (lines.map (indentChars w)) <+: w ++ sharedMargin lines := by
    obtain ⟨rest, hrest⟩ := hlower
    have hown := (hiff _).mp List.prefix_rfl
    rw [← hrest, List.append_assoc] at hown ⊢
    rw [List.prefix_append_right_inj, prefix_sharedMargin_iff h]
    refine ⟨?_, fun l hl hl' => (List.prefix_append_right_inj w).mp (hown.2 l hl hl')⟩
    simpa [isMarginOnly_append, hw] using hown.1
  exact hupper.eq_of_length_le hlower.length_le

theorem dedentChars_indented (hw : isMarginOnly w = true) (lines : List (List Char)) :
    dedentChars (lines.map (indentChars w)) = dedentChars lines := by
  rw [dedentChars, dedentChars, List.map_map]
  refine List.map_congr_left fun l hl => ?_
  rw [Function.comp_apply, dedentLine, dedentLine, isMarginOnly_indentChars hw]
  split
  · rfl
  · rename_i hmore
    have hmore : isMarginOnly l = false := by simpa using hmore
    rw [sharedMargin_indented hw ⟨l, hl, hmore⟩, indentChars, hmore]
    simp [List.drop_append]

theorem dedentLine_behind {l : List Char} (hl : l ∈ lines) (hmore : isMarginOnly l = false) :
    l = sharedMargin lines ++ dedentLine (sharedMargin lines).length l := by
  obtain ⟨rest, hrest⟩ := ((prefix_sharedMargin_iff ⟨l, hl, hmore⟩).mp List.prefix_rfl).2 l hl hmore
  rw [dedentLine, hmore]
  nth_rewrite 1 2 [← hrest]
  simp

theorem isMarginOnly_sharedMargin (lines : List (List Char)) :
    isMarginOnly (sharedMargin lines) = true := by
  by_cases h : ∃ l ∈ lines, isMarginOnly l = false
  · exact ((prefix_sharedMargin_iff h).mp List.prefix_rfl).1
  · have hnone : lines.filter (fun l => !isMarginOnly l) = [] := by
      simpa using h
    rw [sharedMargin, hnone]
    rfl

end Dedenting

section Texts

variable {w : String}

theorem exists_append_iff {s t : String} : (∃ rest, s = t ++ rest) ↔ t.toList <+: s.toList := by
  constructor
  · rintro ⟨rest, rfl⟩
    exact ⟨rest.toList, by simp⟩
  · rintro ⟨rest, hrest⟩
    refine ⟨String.ofList rest, String.toList_injective ?_⟩
    simp [hrest]

/-- Dedenting takes away the margin that the lines share. -/
theorem dedentLines_dedented (lines : List String) :
    Dedented lines (String.ofList (sharedMargin (lines.map String.toList)))
      (dedentLines lines) := by
  constructor
  · simpa [IsMargin] using isMarginOnly_sharedMargin (lines.map String.toList)
  · rw [dedentLines, dedentChars, List.map_map, List.map_map, List.forall₂_map_right_iff,
      List.forall₂_same]
    intro line hline
    by_cases hmargin : IsMargin line
    · refine Or.inl ⟨hmargin, ?_⟩
      simp [dedentLine, show isMarginOnly line.toList = true from hmargin]
    · refine Or.inr ⟨hmargin, String.toList_injective ?_⟩
      have hmore : isMarginOnly line.toList = false := by simpa [IsMargin] using hmargin
      simpa using dedentLine_behind (List.mem_map_of_mem hline) hmore
  · rintro m hm ⟨line, hline, hmore⟩ hall
    have hmore : ∃ l ∈ lines.map String.toList, isMarginOnly l = false :=
      ⟨line.toList, List.mem_map_of_mem hline, by simpa [IsMargin] using hmore⟩
    rw [exists_append_iff, String.toList_ofList, prefix_sharedMargin_iff hmore,
      List.forall_mem_map]
    refine ⟨hm, fun l hl hl' => ?_⟩
    rw [← exists_append_iff]
    exact hall l hl (by simpa [IsMargin] using hl')

/-- Dedented lines that are joined come apart again. -/
theorem Dedented.splitAt_joinLines {lines plain : List String} {margin : String}
    (h : Dedented lines margin plain) (hne : lines ≠ [])
    (hfeed : ∀ line ∈ lines, '\n' ∉ line.toList) : splitAt '\n' (joinLines plain) = plain := by
  apply Text.splitAt_joinLines
  · intro hnil
    have hlength := h.behind.length_eq
    exact hne (by simpa [hnil] using hlength)
  · intro out hout
    obtain ⟨i, hi, rfl⟩ := List.getElem_of_mem hout
    have hlines : i < lines.length := h.behind.length_eq ▸ hi
    rcases h.behind.get hlines hi with ⟨-, hnone⟩ | ⟨-, hline⟩
    · simp only [List.get_eq_getElem] at hnone
      simp [hnone]
    · intro hmem
      apply hfeed lines[i] (List.getElem_mem hlines)
      simp only [List.get_eq_getElem] at hline
      rw [hline]
      simp [hmem]

/-- Lines with a further margin come out of dedenting as they did without it. -/
theorem dedentLines_indented (hw : IsMargin w) (lines : List String) :
    dedentLines (lines.map fun line => String.ofList (indentChars w.toList line.toList)) =
      dedentLines lines := by
  have hchars : (lines.map fun line => String.ofList (indentChars w.toList line.toList)).map
      String.toList = (lines.map String.toList).map (indentChars w.toList) := by
    simp
  rw [dedentLines, hchars, dedentChars_indented hw, dedentLines]

theorem unbroken_of_isMarginOnly {line : List Char} (h : isMarginOnly line = true) :
    Unbroken line := by
  intro c hc
  have hchar := List.all_eq_true.mp h c hc
  simp only [isMarginChar, Bool.or_eq_true, beq_iff_eq] at hchar
  rcases hchar with rfl | rfl <;> decide

theorem unbroken_takeWhile (cs : List Char) : Unbroken (cs.takeWhile (!isLineBreak ·)) := by
  intro c hc
  simpa using List.mem_takeWhile_imp hc

theorem unbroken_indentNumbered {w line : List Char} (hw : isMarginOnly w = true)
    (hline : Unbroken line) (first last : Int) (k : Nat) :
    Unbroken (indentNumbered w first last k line) := by
  have hindented : Unbroken (w ++ line) := by
    intro c hc
    rcases List.mem_append.mp hc with hc | hc
    · exact unbroken_of_isMarginOnly hw c hc
    · exact hline c hc
  unfold indentNumbered indentChars
  split
  · split
    · exact hline
    · exact hindented
  · exact hline

theorem indentNumbered_eq_nil {w line : List Char} {first last : Int} {k : Nat} :
    indentNumbered w first last k line = [] ↔ line = [] := by
  unfold indentNumbered indentChars
  split
  · split
    · rfl
    · rename_i hmore
      have hne : line ≠ [] := by
        rintro rfl
        simp [isMarginOnly] at hmore
      simp [hne]
  · rfl

/-- The lines of a text in which some have a further margin. -/
theorem charLines_indentFrom {w : List Char} (hw : isMarginOnly w = true) (first last : Int)
    (k : Nat) {cs : List Char} (hreturn : '\r' ∉ cs) :
    charLines (indentFrom w first last k cs) =
      (charLines cs).mapIdx fun i => indentNumbered w first last (k + i) := by
  fun_induction indentFrom w first last k cs with
  | case1 k cs line hrest =>
    have hcs := List.takeWhile_append_dropWhile (p := (!isLineBreak ·)) (l := cs)
    rw [hrest, List.append_nil] at hcs
    have hline : Unbroken cs := hcs ▸ unbroken_takeWhile cs
    by_cases hnil : cs = []
    · simp [line, hnil, indentNumbered, indentChars, isMarginOnly, charLines]
    · have hlineNe : line ≠ [] := by
        rwa [Ne, indentNumbered_eq_nil, hcs]
      rw [charLines_single (unbroken_indentNumbered hw (unbroken_takeWhile cs) _ _ _) hlineNe,
        charLines_single hline hnil]
      simp [hcs]
  | case2 k cs line mark rest hrest ih =>
    have hcs := List.takeWhile_append_dropWhile (p := (!isLineBreak ·)) (l := cs)
    rw [hrest] at hcs
    have hmark : isLineBreak mark = true := by
      have hhead := List.head?_dropWhile_not (!isLineBreak ·) cs
      simpa [hrest] using hhead
    have hmem : ∀ c ∈ mark :: rest, c ∈ cs := fun c hc => hcs ▸ List.mem_append_right _ hc
    have hne : mark ≠ '\r' := by
      rintro rfl
      exact hreturn (hmem _ (List.mem_cons_self ..))
    -- A further margin holds no line break, so the line still ends at its mark.
    have hrestLines := ih fun hr => hreturn (hmem _ (List.mem_cons_of_mem _ hr))
    rw [charLines_append_mark (unbroken_indentNumbered hw (unbroken_takeWhile cs) _ _ _) hmark hne,
      hrestLines]
    nth_rewrite 2 [← hcs]
    rw [charLines_append_mark (unbroken_takeWhile cs) hmark hne, List.mapIdx_cons]
    simp [Nat.add_assoc, Nat.add_comm 1]

theorem splitLines_indentRange {text : String} (hw : IsMargin w) (hreturn : '\r' ∉ text.toList)
    (first last : Int) :
    splitLines (indentRange w first last text) = (splitLines text).mapIdx fun i line =>
      String.ofList (indentNumbered w.toList first last (1 + i) line.toList) := by
  rw [splitLines, indentRange, String.toList_ofList, charLines_indentFrom hw first last 1 hreturn,
    splitLines]
  apply List.ext_getElem?
  intro i
  simp [List.getElem?_mapIdx, Function.comp_def]

end Texts

end SnippetRunner.Text
