import SnippetRunner.Proofs.Language.Readings
import SnippetRunner.Proofs.Source.Literals
import SnippetRunner.Source.Import

/-!
Comments behind import statements. A line that gets a comment keeps its bracket depth and its
continuation mark if what opens the comment is what the scanner strips, and then all the statements
are found where they were. In one language the two differ: there the text of a comment counts as
code, and only a comment with balanced brackets and no continuation mark changes nothing.
-/
namespace SnippetRunner.Source

open Text

def lineComment (d : Descriptor) : String :=
  if d.name = "python" ∨ d.name = "ruby" then "#" else "//"

def commented (d : Descriptor) (line text : String) : String :=
  line ++ " " ++ lineComment d ++ text

/-- The file with another line in the place of its line `k`. -/
def replaceLine (file : SourceFile) (k : Nat) (line : String) : SourceFile :=
  { file with lines := file.lines.set (k - 1) line }

def Statement.extent (s : Statement) : Nat × Nat :=
  (s.start, s.lines.length)

/-- Where the import statements outside a selection are found. -/
def importExtents (file : SourceFile) (first last : Int) : List (Nat × Nat) :=
  (file.imports first last).map Statement.extent

/-- Line `k` belongs to an import statement of the leading region, and no quote is open at its
end. -/
structure InStatement (file : SourceFile) (first : Int) (k : Nat) (line : String) : Prop where
  read : file.lines[k - 1]? = some line
  inside : ∃ s ∈ statementsFrom file.descriptor first 1 file.lines,
    s.start ≤ k ∧ k < s.start + s.lines.length
  closed : QuotesClosed line.toList

/-- No comment behind a line of an import statement changes where imports are found. -/
def CommentsIgnored (d : Descriptor) : Prop :=
  ∀ (file : SourceFile) (first last : Int) (k : Nat) (line text : String), file.descriptor = d →
    InStatement file first k line →
      importExtents (replaceLine file k (commented d line text)) first last =
        importExtents file first last

/-- Two lines count the same for the end of a statement. -/
structure Alike (style : BlockStyle) (line other : String) : Prop where
  depth : plainDepth style other = plainDepth style line
  continued : isContinued (plainChars style other.toList) =
    isContinued (plainChars style line.toList)

section Depths

theorem depthChange_append (a b : List Char) :
    depthChange (a ++ b) = depthChange a + depthChange b := by
  simp only [depthChange, List.countP_append]
  omega

theorem depthChange_blank (a : List Char) : depthChange (' ' :: a) = depthChange a := by
  simp [depthChange, opensBracket, closesBracket]

theorem isContinued_iff (plain : List Char) :
    isContinued plain = ((plain.reverse.dropWhile isBlank).head? == some '\\') := by
  rw [isContinued, trimRight, List.getLast?_reverse]

theorem isContinued_blank (plain : List Char) :
    isContinued (plain ++ [' ']) = isContinued plain := by
  rw [isContinued_iff, isContinued_iff, List.reverse_append, List.reverse_singleton,
    List.singleton_append, List.dropWhile_cons_of_pos (by decide)]

/-- Behind a character that is neither blank nor a continuation mark, what follows decides. -/
theorem isContinued_behind {c : Char} (hblank : isBlank c = false) (hmark : c ≠ '\\')
    (before after : List Char) : isContinued (before ++ c :: after) = isContinued after := by
  rw [isContinued_iff, isContinued_iff, List.reverse_append, List.reverse_cons, List.append_assoc,
    List.dropWhile_append]
  split
  · rename_i hempty
    rw [List.isEmpty_iff] at hempty
    simp [hempty, hblank, hmark]
  · rename_i hsome
    cases hrest : after.reverse.dropWhile isBlank with
    | nil => simp [hrest] at hsome
    | cons d rest => rfl

end Depths

section Lines

variable {d : Descriptor} {line text : String}

theorem commented_toList (d : Descriptor) (line text : String) :
    (commented d line text).toList =
      line.toList ++ ' ' :: ((lineComment d).toList ++ text.toList) := by
  simp [commented]

/-- A comment that the scanner strips leaves a line as it counts. -/
theorem alike_commented (hmark : d.blockStyle.commentMark = lineComment d)
    (hline : QuotesClosed line.toList) : Alike d.blockStyle line (commented d line text) := by
  have hplain : plainChars d.blockStyle (commented d line text).toList =
      plainChars d.blockStyle line.toList ∨
      plainChars d.blockStyle (commented d line text).toList =
        plainChars d.blockStyle line.toList ++ [' '] := by
    have hblank := plainChars_blank hline d.blockStyle
      (d.blockStyle.commentMark.toList ++ text.toList)
    rw [plainChars_comment] at hblank
    rwa [commented_toList, ← hmark]
  constructor
  · rw [plainDepth, plainDepth]
    rcases hplain with hsame | hmore
    · rw [hsame]
    · rw [hmore, depthChange_append, depthChange_blank]
      exact Int.add_zero _
  · rcases hplain with hsame | hmore
    · rw [hsame]
    · rw [hmore, isContinued_blank]

theorem plainChars_number_sign (text : List Char) :
    plainChars .braces ('#' :: text) = '#' :: plainChars .braces text := by
  rw [plainChars, plainChars, emptyLiterals_plain (by decide)]
  simp [BlockStyle.commentMark, beforeMark, List.isPrefixOf]

/-- A comment that counts as code still leaves a line as it counts if its brackets are balanced
and neither the line nor the comment goes on. -/
theorem alike_balanced (hstyle : d.blockStyle = .braces) (hmark : lineComment d = "#")
    (hline : QuotesClosed line.toList)
    (hends : isContinued (plainChars d.blockStyle line.toList) = false)
    (hdepth : plainDepth d.blockStyle text = 0)
    (htext : isContinued (plainChars d.blockStyle text.toList) = false) :
    Alike d.blockStyle line (commented d line text) := by
  rw [hstyle] at hends hdepth htext ⊢
  have hcomment : (commented d line text).toList = line.toList ++ ' ' :: '#' :: text.toList := by
    rw [commented_toList, hmark]
    rfl
  have hplain := plainChars_blank hline .braces ('#' :: text.toList)
  rw [plainChars_number_sign, ← hcomment] at hplain
  constructor
  · rw [plainDepth, plainDepth]
    rcases hplain with hsame | hmore
    · rw [hsame]
    · have hsign : depthChange ('#' :: plainChars .braces text.toList) = 0 := by
        rw [plainDepth] at hdepth
        simpa [depthChange, opensBracket, closesBracket] using hdepth
      rw [hmore, depthChange_append, depthChange_blank, hsign, Int.add_zero]
  · rcases hplain with hsame | hmore
    · rw [hsame]
    · rw [hmore, List.append_cons, isContinued_behind (by decide) (by decide), htext, hends]

end Lines

section Statements

variable {d : Descriptor} {first : Int}

theorem statementLength_set {style : BlockStyle} {depth : Int} {lines : List String} {k : Nat}
    {line other : String} (hline : lines[k]? = some line) (halike : Alike style line other) :
    statementLength style depth (lines.set k other) = statementLength style depth lines := by
  induction lines generalizing depth k with
  | nil => simp at hline
  | cons top rest ih =>
    cases k with
    | zero =>
      obtain rfl : top = line := by simpa using hline
      have hdepth := halike.depth
      rw [plainDepth, plainDepth] at hdepth
      simp only [List.set_cons_zero, statementLength, hdepth, halike.continued]
    | succ k =>
      have hrest : rest[k]? = some line := by simpa using hline
      simp only [List.set_cons_succ, statementLength, ih hrest]

theorem endsRegion_of_import {number : Nat} {line other : String}
    (hline : endsRegion d first number line = false) (himport : d.isImport other = true) :
    endsRegion d first number other = false := by
  unfold endsRegion at hline ⊢
  split
  · rename_i hnone
    rw [if_pos hnone] at hline
    exact hline
  · simp [himport]

theorem le_start_of_mem_statementsFrom {number : Nat} {lines : List String} :
    ∀ s ∈ statementsFrom d first number lines, number ≤ s.start := by
  fun_induction statementsFrom d first number lines with
  | case1 => simp
  | case2 => simp
  | case3 number line rest hgoes himport size ih =>
    intro s hs
    rcases List.mem_cons.mp hs with rfl | hs
    · exact le_rfl
    · have hle := ih s hs
      omega
  | case4 number line rest hgoes himport ih =>
    intro s hs
    have hle := ih s hs
    omega

theorem statementsFrom_import {number : Nat} {line : String} {rest : List String}
    (hgoes : endsRegion d first number line = false) (himport : d.isImport line = true) :
    statementsFrom d first number (line :: rest) =
      ⟨number, (line :: rest).take (statementLength d.blockStyle 0 (line :: rest))⟩ ::
        statementsFrom d first (number + statementLength d.blockStyle 0 (line :: rest))
          ((line :: rest).drop (statementLength d.blockStyle 0 (line :: rest))) := by
  rw [statementsFrom, hgoes, himport]
  rfl

/-- A line of a statement that is replaced by one that counts the same, and is an import if the old
one was, leaves all statements where they are. -/
theorem statementsFrom_set {number : Nat} {lines : List String} {k : Nat} {line other : String}
    {s : Statement} (hs : s ∈ statementsFrom d first number lines) (hstart : s.start ≤ number + k)
    (hstop : number + k < s.start + s.lines.length) (hline : lines[k]? = some line)
    (halike : Alike d.blockStyle line other)
    (himports : d.isImport line = true → d.isImport other = true) :
    (statementsFrom d first number (lines.set k other)).map Statement.extent =
      (statementsFrom d first number lines).map Statement.extent := by
  fun_induction statementsFrom d first number lines generalizing k with
  | case1 => simp at hs
  | case2 => simp at hs
  | case3 number top rest hgoes himport size =>
    rename_i ih
    have hgoes' : endsRegion d first number top = false := by simpa using hgoes
    have hsize : statementLength d.blockStyle 0 ((top :: rest).set k other) = size :=
      statementLength_set hline halike
    -- the statement at the top begins with an import before and after
    obtain ⟨top', rest', hset, hends, himport'⟩ : ∃ top' rest',
        (top :: rest).set k other = top' :: rest' ∧ endsRegion d first number top' = false ∧
          d.isImport top' = true := by
      cases k with
      | zero =>
        obtain rfl : top = line := by simpa using hline
        exact ⟨other, rest, rfl, endsRegion_of_import hgoes' (himports himport), himports himport⟩
      | succ k => exact ⟨top, rest.set k other, rfl, hgoes', himport⟩
    have hlength : ((top' :: rest').take size).length = ((top :: rest).take size).length := by
      rw [← hset, List.length_take, List.length_take, List.length_set]
    have hbelow : (statementsFrom d first (number + size)
        (((top :: rest).set k other).drop size)).map Statement.extent =
        (statementsFrom d first (number + size) ((top :: rest).drop size)).map
          Statement.extent := by
      rw [List.drop_set]
      split
      · rfl
      · rename_i hlater
        have hnot : s ≠ ⟨number, (top :: rest).take size⟩ := by
          rintro rfl
          simp only [List.length_take] at hstop
          omega
        refine ih ((List.mem_cons.mp hs).resolve_left hnot) (by omega) (by omega) ?_
        rw [List.getElem?_drop, show size + (k - size) = k by omega]
        exact hline
    rw [hset] at hsize hbelow
    rw [hset, statementsFrom_import hends himport', hsize, List.map_cons, List.map_cons, hbelow]
    simp only [Statement.extent, hlength]
  | case4 number top rest hgoes himport ih =>
    cases k with
    | zero =>
      have hlater := le_start_of_mem_statementsFrom s hs
      omega
    | succ k =>
      rw [List.set_cons_succ, statementsFrom, if_neg hgoes, if_neg himport]
      exact ih hs (by omega) (by omega) (by simpa using hline)

end Statements

section Files

variable {d : Descriptor} {file : SourceFile} {first last : Int} {k : Nat} {line other : String}

/-- Without patterns for imports nothing is gathered. -/
theorem statementsFrom_of_noImports {bound : Int} {number : Nat}
    {lines : List String} (h : d.importPatterns.isEmpty = true) :
    statementsFrom d bound number lines = [] := by
  have hnone : ∀ line, d.isImport line = false := by
    intro line
    rw [List.isEmpty_iff] at h
    simp [Descriptor.isImport, h]
  fun_induction statementsFrom d bound number lines with
  | case1 => rfl
  | case2 => rfl
  | case3 number line rest hgoes himport =>
    rw [hnone line] at himport
    cases himport
  | case4 number line rest hgoes himport ih => exact ih

theorem imports_eq_filter (f : SourceFile) (first last : Int) :
    f.imports first last = (statementsFrom f.descriptor first 1 f.lines).filter fun s =>
      !(first ≤ (s.start : Int) && (s.start : Int) ≤ last) := by
  rw [SourceFile.imports]
  split
  · rename_i hnone
    rw [statementsFrom_of_noImports hnone]
    rfl
  · rfl

theorem importExtents_eq_filter (file : SourceFile) (first last : Int) :
    importExtents file first last =
      ((statementsFrom file.descriptor first 1 file.lines).map Statement.extent).filter
        fun e => !(first ≤ (e.1 : Int) && (e.1 : Int) ≤ last) := by
  rw [importExtents, imports_eq_filter, List.filter_map]
  rfl

theorem importExtents_replaceLine (hin : InStatement file first k line)
    (halike : Alike file.descriptor.blockStyle line other)
    (himports : file.descriptor.isImport line = true → file.descriptor.isImport other = true) :
    importExtents (replaceLine file k other) first last = importExtents file first last := by
  obtain ⟨s, hs, hstart, hstop⟩ := hin.inside
  have hpos := le_start_of_mem_statementsFrom s hs
  have hset := statementsFrom_set (k := k - 1) hs (by omega) (by omega) hin.read halike himports
  rw [importExtents_eq_filter, importExtents_eq_filter]
  simp only [replaceLine, hset]

theorem isImport_commented (hd : d ∈ Language.builtIn) (text : String)
    (h : d.isImport line = true) : d.isImport (commented d line text) = true := by
  rw [commented, String.append_assoc, String.append_assoc]
  refine Language.isImport_append hd ?_ h
  intro c hc
  obtain rfl : ' ' = c := by simpa using hc
  decide

end Files

section Unbalanced

private def requiring : SourceFile :=
  ⟨⟨.root, ["a.rb"]⟩, Language.ruby, ["require 'set'", "require 'json'", "puts 1"]⟩

private theorem statements_requiring : statementsFrom Language.ruby 3 1 requiring.lines =
    [⟨1, ["require 'set'"]⟩, ⟨2, ["require 'json'"]⟩] := by
  have himports : Language.ruby.isImport "require 'set'" = true ∧
      Language.ruby.isImport "require 'json'" = true := by decide
  have hregion : Language.ruby.definitionPatterns.isEmpty = true := by decide
  have hfirst : statementLength Language.ruby.blockStyle 0 requiring.lines = 1 := by
    decide +kernel
  have hsecond : statementLength Language.ruby.blockStyle 0 ["require 'json'", "puts 1"] = 1 := by
    decide +kernel
  simp only [requiring] at hfirst
  simp [requiring, statementsFrom, endsRegion, himports, hregion, hfirst, hsecond]

private theorem importExtents_requiring : importExtents requiring 3 3 = [(1, 1), (2, 1)] := by
  rw [importExtents_eq_filter]
  simp only [show requiring.descriptor = Language.ruby from rfl, statements_requiring]
  decide

private theorem inStatement_requiring : InStatement requiring 3 1 "require 'set'" := by
  refine ⟨rfl, ⟨⟨1, ["require 'set'"]⟩, ?_, by decide, by decide⟩, ?_⟩
  · simp only [show requiring.descriptor = Language.ruby from rfl, statements_requiring]
    exact List.mem_cons_self ..
  · have hword : QuotesClosed "require ".toList := quotesClosed_of_no_quote (by simp [isQuote])
    exact hword.append (.literal (by decide) (by decide) .nil)

/-- The bracket that the comment opens is never closed, so that the first statement takes all
lines. -/
private theorem importExtents_requiring_commented :
    importExtents (replaceLine requiring 1 (commented Language.ruby "require 'set'" " (sorted"))
      3 3 = [(1, 3)] := by
  have hlines :
      (replaceLine requiring 1 (commented Language.ruby "require 'set'" " (sorted")).lines =
        ["require 'set' # (sorted", "require 'json'", "puts 1"] := by decide
  have himport : Language.ruby.isImport "require 'set' # (sorted" = true := by decide
  have hregion : Language.ruby.definitionPatterns.isEmpty = true := by decide
  have hlength : statementLength Language.ruby.blockStyle 0
      ["require 'set' # (sorted", "require 'json'", "puts 1"] = 3 := by decide +kernel
  rw [importExtents_eq_filter, hlines]
  simp [replaceLine, requiring, statementsFrom, endsRegion, himport, hregion, hlength,
    Statement.extent]

end Unbalanced

/-- Comments behind import statements are ignored in all built-in languages but one, where they
count as code; there a comment changes nothing if its brackets are balanced and if neither the line
nor the comment ends with a continuation mark. -/
theorem comments_ignored_iff {d : Descriptor} (hd : d ∈ Language.builtIn)
    (himports : d.importPatterns ≠ []) :
    (CommentsIgnored d ↔ d ≠ Language.ruby) ∧
      ∀ (file : SourceFile) (first last : Int) (k : Nat) (line text : String),
        file.descriptor = d → InStatement file first k line →
        isContinued (plainChars d.blockStyle line.toList) = false →
        plainDepth d.blockStyle text = 0 →
        isContinued (plainChars d.blockStyle text.toList) = false →
        importExtents (replaceLine file k (commented d line text)) first last =
          importExtents file first last := by
  have hmarks : ∀ d ∈ Language.builtIn, d.importPatterns ≠ [] → d ≠ Language.ruby →
      d.blockStyle.commentMark = lineComment d := by decide
  have hstripped : d ≠ Language.ruby → CommentsIgnored d := by
    rintro hne file first last k line text rfl hin
    exact importExtents_replaceLine hin (alike_commented (hmarks _ hd himports hne) hin.closed)
      (isImport_commented hd text)
  refine ⟨⟨?_, hstripped⟩, ?_⟩
  · rintro hignored rfl
    have hsame := hignored requiring 3 3 1 "require 'set'" " (sorted" rfl inStatement_requiring
    rw [importExtents_requiring_commented, importExtents_requiring] at hsame
    revert hsame
    decide
  · rintro file first last k line text rfl hin hends hdepth htext
    by_cases hruby : file.descriptor = Language.ruby
    · have hbraces : file.descriptor.blockStyle = .braces := by
        rw [hruby]
        rfl
      have hsign : lineComment file.descriptor = "#" := by
        rw [hruby]
        decide
      exact importExtents_replaceLine hin
        (alike_balanced hbraces hsign hin.closed hends hdepth htext) (isImport_commented hd text)
    · exact hstripped hruby file first last k line text rfl hin

/-- In a file with two import statements the comment behind the first one makes it swallow the
second one; in another language no comment does. -/
theorem comments_ignored_iff_requiring :
    Language.ruby ∈ Language.builtIn ∧ InStatement requiring 3 1 "require 'set'" ∧
      importExtents requiring 3 3 = [(1, 1), (2, 1)] ∧
      importExtents (replaceLine requiring 1 (commented Language.ruby "require 'set'" " (sorted"))
        3 3 = [(1, 3)] ∧
      importExtents (replaceLine requiring 1 (commented Language.ruby "require 'set'" " (sorted)"))
        3 3 = [(1, 1), (2, 1)] ∧
      ¬ CommentsIgnored Language.ruby ∧ CommentsIgnored Language.python := by
  have hruby : Language.ruby ∈ Language.builtIn := by decide
  have hpython : Language.python ∈ Language.builtIn := by decide
  obtain ⟨hiff, hbalanced⟩ := comments_ignored_iff hruby (by decide)
  obtain ⟨hiff', -⟩ := comments_ignored_iff hpython (by decide)
  have hharmless := hbalanced requiring 3 3 1 "require 'set'" " (sorted)" rfl inStatement_requiring
    (by decide +kernel) (by decide +kernel) (by decide +kernel)
  exact ⟨hruby, inStatement_requiring, importExtents_requiring, importExtents_requiring_commented,
    hharmless.trans importExtents_requiring, fun hignored => hiff.mp hignored rfl,
    hiff'.mpr (by decide)⟩

end SnippetRunner.Source
