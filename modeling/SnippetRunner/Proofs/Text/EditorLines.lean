import SnippetRunner.Proofs.Text.LineBreaks
import SnippetRunner.Proofs.Text.PathNames

/-!
Lines as an editor numbers them: only a line feed ends such a line. Cutting a text at all line
breaks gives the same lines as cutting it at its line feeds once the other breaks are replaced
by line feeds, and so the lines of an editor just if there are no others.
-/
namespace SnippetRunner.Text

def feedLines (cs : List Char) : List (List Char) :=
  let pieces := cs.splitOn '\n'
  if pieces.getLast? = some [] then pieces.dropLast else pieces

def editorLines (text : String) : List String :=
  (feedLines text.toList).map String.ofList

def feedFor (c : Char) : Char :=
  if isLineBreak c then '\n' else c

/-- The text with a line feed in the place of each line break. -/
def withFeeds (text : String) : String :=
  String.ofList (text.toList.map feedFor)

def endedChars (cs : List Char) : List Char :=
  if cs.getLast? = some '\n' then cs else cs ++ ['\n']

def ended (text : String) : String :=
  String.ofList (endedChars text.toList)

def OnlyFeeds (text : String) : Prop :=
  ∀ c ∈ text.toList, isLineBreak c = true → c = '\n'

section Pieces

@[simp] theorem feedLines_nil : feedLines [] = [] := by
  simp [feedLines]

private theorem splitOn_feed (rest : List Char) :
    ('\n' :: rest).splitOn '\n' = [] :: rest.splitOn '\n' := by
  simp [List.splitOn, List.splitOnP_cons_eq_if_modifyHead]

private theorem splitOn_other {c : Char} (hc : c ≠ '\n') (rest : List Char) :
    (c :: rest).splitOn '\n' = (rest.splitOn '\n').modifyHead (List.cons c) := by
  simp [List.splitOn, List.splitOnP_cons_eq_if_modifyHead, hc]

@[simp] theorem feedLines_feed (rest : List Char) :
    feedLines ('\n' :: rest) = [] :: feedLines rest := by
  have hne := List.splitOn_ne_nil '\n' rest
  unfold feedLines
  rw [splitOn_feed]
  dsimp only
  rw [List.getLast?_cons_of_ne_nil hne, List.dropLast_cons_of_ne_nil hne]
  split <;> rfl

theorem feedLines_cons {c : Char} (hc : c ≠ '\n') (rest : List Char) :
    feedLines (c :: rest) =
      match feedLines rest with
      | [] => [[c]]
      | line :: lines => (c :: line) :: lines := by
  unfold feedLines
  rw [splitOn_other hc]
  cases hpieces : rest.splitOn '\n' with
  | nil => exact absurd hpieces (List.splitOn_ne_nil '\n' rest)
  | cons piece pieces =>
    cases pieces with
    | nil => cases piece <;> simp
    | cons next more =>
      by_cases hlast : (next :: more).getLast? = some [] <;>
        simp [List.getLast?_cons_cons, hlast]

theorem feedLines_eq_nil {cs : List Char} : feedLines cs = [] ↔ cs = [] := by
  constructor
  · intro h
    cases cs with
    | nil => rfl
    | cons c rest =>
      by_cases hc : c = '\n'
      · simp [hc] at h
      · rw [feedLines_cons hc] at h
        cases hrest : feedLines rest <;> simp [hrest] at h
  · rintro rfl
    exact feedLines_nil

theorem mem_feedLines {cs : List Char} {c : Char} (h : c ∈ cs) (hc : c ≠ '\n') :
    ∃ line ∈ feedLines cs, c ∈ line := by
  induction cs with
  | nil => simp at h
  | cons d rest ih =>
    by_cases hd : d = '\n'
    · subst hd
      have hrest : c ∈ rest := (List.mem_cons.mp h).resolve_left hc
      obtain ⟨line, hline, hmem⟩ := ih hrest
      exact ⟨line, by simp [hline], hmem⟩
    · rw [feedLines_cons hd]
      cases hlines : feedLines rest with
      | nil =>
        rw [feedLines_eq_nil] at hlines
        subst hlines
        exact ⟨[d], by simp, h⟩
      | cons first lines =>
        rcases List.mem_cons.mp h with rfl | hrest
        · exact ⟨c :: first, by simp, by simp⟩
        · obtain ⟨line, hline, hmem⟩ := ih hrest
          rw [hlines] at hline
          rcases List.mem_cons.mp hline with rfl | hline
          · exact ⟨d :: line, by simp, List.mem_cons_of_mem _ hmem⟩
          · exact ⟨line, List.mem_cons_of_mem _ hline, hmem⟩

/-- Joined again the pieces are the text, but for a line feed at its end. -/
theorem intercalate_feedLines (cs : List Char) :
    ['\n'].intercalate (feedLines cs) ++ ['\n'] = endedChars cs := by
  induction cs with
  | nil => simp [endedChars]
  | cons c rest ih =>
    have hended : endedChars (c :: rest) =
        if rest = [] then (if c = '\n' then [c] else [c, '\n']) else c :: endedChars rest := by
      unfold endedChars
      cases rest with
      | nil => by_cases hc : c = '\n' <;> simp [hc]
      | cons d ds =>
        rw [List.getLast?_cons_cons]
        split <;> simp
    by_cases hc : c = '\n'
    · subst hc
      rw [feedLines_feed, hended]
      by_cases hrest : rest = []
      · simp [hrest]
      · have hne : feedLines rest ≠ [] := fun h => hrest (feedLines_eq_nil.mp h)
        rw [List.intercalate_cons_of_ne_nil hne, if_neg hrest, ← ih]
        simp
    · rw [feedLines_cons hc, hended]
      cases hlines : feedLines rest with
      | nil =>
        rw [feedLines_eq_nil] at hlines
        simp [hlines, hc]
      | cons line lines =>
        have hrest : rest ≠ [] := by
          rintro rfl
          simp at hlines
        rw [if_neg hrest, ← ih, hlines]
        cases lines with
        | nil => simp
        | cons next more => simp [List.intercalate_cons_of_ne_nil]

end Pieces

section Breaks

theorem isLineBreak_feed : isLineBreak '\n' = true := by decide

/-- Cutting at line breaks is cutting at line feeds that stand for them. -/
theorem charLines_eq_feedLines {cs : List Char} (h : '\r' ∉ cs) :
    charLines cs = feedLines (cs.map feedFor) := by
  induction cs with
  | nil => simp [charLines]
  | cons c rest ih =>
    have hc : c ≠ '\r' := fun he => h (he ▸ List.mem_cons_self ..)
    have hrest := ih fun hmem => h (List.mem_cons_of_mem _ hmem)
    rw [List.map_cons]
    by_cases hbreak : isLineBreak c = true
    · have hlines : charLines (c :: rest) = [] :: charLines rest := by
        rw [charLines.eq_3]
        · simp [hbreak]
        · rintro more rfl
          exact absurd rfl hc
      rw [hlines, feedFor, if_pos hbreak, feedLines_feed, hrest]
    · have hfeed : c ≠ '\n' := by
        rintro rfl
        exact hbreak isLineBreak_feed
      have hline := charLines_cons (by simpa using hbreak) rest
      -- The two functions agree on what follows, which decides where the character goes.
      cases hlines : feedLines (rest.map feedFor) with
      | nil => simp only [hline, feedFor, if_neg hbreak, feedLines_cons hfeed, hrest, hlines]
      | cons line lines =>
        simp only [hline, feedFor, if_neg hbreak, feedLines_cons hfeed, hrest, hlines]

theorem map_feedFor {cs : List Char} (h : ∀ c ∈ cs, isLineBreak c = true → c = '\n') :
    cs.map feedFor = cs := by
  have hsame : ∀ c ∈ cs, feedFor c = c := by
    intro c hc
    by_cases hbreak : isLineBreak c = true
    · simp [feedFor, h c hc hbreak, isLineBreak_feed]
    · simp [feedFor, hbreak]
  exact (List.map_congr_left hsame).trans (List.map_id' cs)

/-- A text is cut as an editor cuts it just if its line breaks are line feeds. -/
theorem charLines_eq_feedLines_iff {cs : List Char} :
    charLines cs = feedLines cs ↔ ∀ c ∈ cs, isLineBreak c = true → c = '\n' := by
  constructor
  · intro h c hc hbreak
    by_cases hfeed : c = '\n'
    · exact hfeed
    · obtain ⟨line, hline, hmem⟩ := mem_feedLines hc hfeed
      rw [← h] at hline
      rw [charLines_unbroken cs line hline c hmem] at hbreak
      cases hbreak
  · intro h
    have hreturn : '\r' ∉ cs := fun hmem => absurd (h '\r' hmem (by decide)) (by decide)
    rw [charLines_eq_feedLines hreturn, map_feedFor h]

/-- Reading a text leaves no carriage return in it. -/
theorem return_not_mem_normalizeChars (cs : List Char) : '\r' ∉ normalizeChars cs := by
  fun_induction normalizeChars cs with
  | case1 => simp
  | case2 rest ih => simpa using ih
  | case3 rest hpair ih => simpa using ih
  | case4 c rest hpair hreturn ih =>
    intro hmem
    rcases List.mem_cons.mp hmem with rfl | hmem
    · exact hreturn rfl
    · exact ih hmem

end Breaks

section Texts

theorem splitLines_eq_editorLines {text : String} (h : '\r' ∉ text.toList) :
    splitLines text = editorLines (withFeeds text) := by
  simp [splitLines, editorLines, withFeeds, charLines_eq_feedLines h]

theorem splitLines_eq_editorLines_iff {text : String} :
    splitLines text = editorLines text ↔ OnlyFeeds text := by
  rw [splitLines, editorLines, List.map_inj_right fun _ _ h => String.ofList_injective h]
  exact charLines_eq_feedLines_iff

/-- Lines that are joined come apart again at the line feeds. -/
theorem splitAt_joinLines {lines : List String} (hne : lines ≠ [])
    (hlines : ∀ line ∈ lines, '\n' ∉ line.toList) : splitAt '\n' (joinLines lines) = lines :=
  Path.splitAt_intercalate hne hlines

theorem joinLines_editorLines (text : String) :
    joinLines (editorLines text) ++ "\n" = ended text := by
  apply String.toList_injective
  rw [ended, ← intercalate_feedLines]
  simp [joinLines, editorLines, String.toList_intercalate]

end Texts

end SnippetRunner.Text
