import SnippetRunner.Text.Lines

/-!
Lines and the text they are joined to. A line holds no line break, so that cutting a joined
text gives the lines back, but for an empty line at its end.
-/
namespace SnippetRunner.Text

def Unbroken (line : List Char) : Prop :=
  ∀ c ∈ line, isLineBreak c = false

theorem Unbroken.no_feed {line : List Char} (h : Unbroken line) : '\n' ∉ line := by
  intro hmem
  have hbreak := h '\n' hmem
  revert hbreak
  decide

theorem charLines_cons {c : Char} (hc : isLineBreak c = false) (rest : List Char) :
    charLines (c :: rest) =
      match charLines rest with
      | [] => [[c]]
      | line :: lines => (c :: line) :: lines := by
  have hkept : ¬ isLineBreak c = true := by simp [hc]
  rw [charLines.eq_3]
  · exact (if_neg hkept).trans (by cases charLines rest <;> rfl)
  · rintro more rfl
    cases hc

theorem charLines_unbroken (cs : List Char) : ∀ line ∈ charLines cs, Unbroken line := by
  fun_induction charLines cs with
  | case1 => simp
  | case2 rest ih =>
    intro line hline
    rcases List.mem_cons.mp hline with rfl | hline
    · simp [Unbroken]
    · exact ih line hline
  | case3 c rest hcr hc ih =>
    intro line hline
    rcases List.mem_cons.mp hline with rfl | hline
    · simp [Unbroken]
    · exact ih line hline
  | case4 c rest hcr hc hnil ih =>
    intro line hline d hd
    simp only [List.mem_singleton] at hline
    subst hline
    simp only [List.mem_singleton] at hd
    subst hd
    simpa using hc
  | case5 c rest hcr hc first lines hlines ih =>
    rw [hlines] at ih
    intro line hline
    rcases List.mem_cons.mp hline with rfl | hline
    · intro d hd
      rcases List.mem_cons.mp hd with rfl | hd
      · simpa using hc
      · exact ih first (List.mem_cons_self ..) d hd
    · exact ih line (List.mem_cons_of_mem _ hline)

/-- A line ends at its line break. -/
theorem charLines_append_mark {line : List Char} {mark : Char} (h : Unbroken line)
    (hmark : isLineBreak mark = true) (hreturn : mark ≠ '\r') (rest : List Char) :
    charLines (line ++ mark :: rest) = line :: charLines rest := by
  induction line with
  | nil =>
    rw [List.nil_append, charLines.eq_3]
    · rw [if_pos hmark]
    · rintro more rfl
      exact absurd rfl hreturn
  | cons c cs ih =>
    rw [List.cons_append, charLines_cons (h c (List.mem_cons_self ..)),
      ih fun d hd => h d (List.mem_cons_of_mem _ hd)]

theorem charLines_append {line : List Char} (h : Unbroken line) (rest : List Char) :
    charLines (line ++ '\n' :: rest) = line :: charLines rest :=
  charLines_append_mark h (by decide) (by decide) rest

theorem charLines_single {line : List Char} (h : Unbroken line) (hne : line ≠ []) :
    charLines line = [line] := by
  induction line with
  | nil => exact absurd rfl hne
  | cons c cs ih =>
    rw [charLines_cons (h c (List.mem_cons_self ..))]
    cases cs with
    | nil => simp [charLines]
    | cons d ds => rw [ih (fun e he => h e (List.mem_cons_of_mem _ he)) (by simp)]

theorem splitLines_unbroken (text : String) : ∀ line ∈ splitLines text, Unbroken line.toList := by
  intro line hline
  obtain ⟨cs, hcs, rfl⟩ := List.mem_map.mp hline
  simpa using charLines_unbroken text.toList cs hcs

theorem splitLines_joinLines_cons {line : String} {rest : List String}
    (h : Unbroken line.toList) (hrest : rest ≠ []) :
    splitLines (joinLines (line :: rest)) = line :: splitLines (joinLines rest) := by
  unfold splitLines joinLines
  rw [String.intercalate_cons_of_ne_nil hrest]
  have hchars : (line ++ "\n" ++ String.intercalate "\n" rest).toList =
      line.toList ++ '\n' :: (String.intercalate "\n" rest).toList := by
    simp
  rw [hchars, charLines_append h]
  simp

theorem splitLines_single {line : String} (h : Unbroken line.toList) (hne : line ≠ "") :
    splitLines line = [line] := by
  unfold splitLines
  rw [charLines_single h (by simpa using hne)]
  simp

end SnippetRunner.Text
