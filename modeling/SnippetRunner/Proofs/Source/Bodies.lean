import Mathlib.Algebra.Ring.Int.Defs
import SnippetRunner.Proofs.Language.Names
import SnippetRunner.Proofs.Source.Layout
import SnippetRunner.Proofs.Source.Literals

/-!
Where an indented block ends. Below its head a block goes on to the first line that stands in the
first column, closes no bracket and finds the brackets above it closed. Such a line is code in most
cases; if it is a comment, indented code below it is cut off from the block and is part of no
definition.
-/
namespace SnippetRunner.Source

open Text

def isComment (line : String) : Bool :=
  (trimLeft isBlank line.toList).head? == some '#'

def holdsText (line : String) : Bool :=
  !isBlankLine line.toList

def isCode (line : String) : Bool :=
  holdsText line && !isComment line

def startsInFirstColumn (line : String) : Bool :=
  line.toList.head?.any fun c => !isBlank c

/-- Brackets that are open below the lines. -/
def openBrackets (lines : List String) : Int :=
  (lines.map (plainDepth .indent)).sum

/-- Below some lines the next code is indented, but for blank lines a comment in the first column
comes first. -/
structure CutOff (below passed : List String) (code : String) : Prop where
  next : ∃ rest, below = passed ++ code :: rest
  proper : isCode code = true
  indented : startsInFirstColumn code = false
  skipped : ∀ line ∈ passed, isCode line = false
  comment : ∃ gap comment between, passed = gap ++ comment :: between ∧
    (∀ line ∈ gap, isBlankLine line.toList = true) ∧ comment.toList.head? = some '#'

section Lines

variable {line : String}

theorem startsFlush_iff : startsFlush line.toList = true ↔
    startsInFirstColumn line = true ∧ ∀ c ∈ line.toList.head?, closesBracket c = false := by
  cases hchars : line.toList with
  | nil => simp [startsFlush, startsInFirstColumn, hchars]
  | cons c rest => simp [startsFlush, startsInFirstColumn, hchars]

theorem not_startsFlush_of_blank (h : isBlankLine line.toList = true) :
    startsFlush line.toList = false := by
  cases hchars : line.toList with
  | nil => rfl
  | cons c rest =>
    rw [hchars, isBlankLine, List.all_cons, Bool.and_eq_true] at h
    simp [startsFlush, h.1]

/-- A comment in the first column begins with its mark. -/
theorem head?_of_comment (h : isComment line = true) (hfirst : startsInFirstColumn line = true) :
    line.toList.head? = some '#' := by
  cases hchars : line.toList with
  | nil => simp [startsInFirstColumn, hchars] at hfirst
  | cons c rest =>
    have hc : isBlank c = false := by simpa [startsInFirstColumn, hchars] using hfirst
    simpa [isComment, trimLeft, hchars, hc] using h

theorem startsInFirstColumn_of_decorator (h : isDecorator line = true) :
    startsInFirstColumn line = true := by
  rw [isDecorator, beq_iff_eq] at h
  rw [startsInFirstColumn, h]
  rfl

theorem isBlank_of_isLatin {c : Char} (h : Language.isLatin c = true) : isBlank c = false := by
  rw [← Bool.not_eq_true]
  intro hblank
  have hapart := Language.not_isWordChar_of_isBlank hblank
  rw [Language.isWordChar_of_isLatin h] at hapart
  cases hapart

/-- A line that begins with a letter or an underscore is code in the first column. -/
theorem code_of_isLatin {c : Char} {rest : List Char} (hchars : line.toList = c :: rest)
    (hlatin : Language.isLatin c = true) :
    startsInFirstColumn line = true ∧ isCode line = true := by
  have hblank := isBlank_of_isLatin hlatin
  have hmark : c ≠ '#' := by
    rintro rfl
    exact absurd hlatin (by decide)
  constructor
  · simp [startsInFirstColumn, hchars, hblank]
  · simp [isCode, holdsText, isBlankLine, isComment, trimLeft, hchars, hblank, hmark]

/-- A blank line opens and closes no bracket. -/
theorem plainDepth_of_blank (h : isBlankLine line.toList = true) :
    plainDepth .indent line = 0 := by
  have hblank : ∀ c ∈ line.toList, isBlank c = true := List.all_eq_true.mp h
  have hquotes : ∀ c ∈ line.toList, isQuote c = false := by
    intro c hc
    by_contra hquote
    obtain rfl | rfl : c = '"' ∨ c = '\'' := by
      simpa only [Bool.not_eq_false, isQuote, Bool.or_eq_true, beq_iff_eq] using hquote
    all_goals exact absurd (hblank _ hc) (by decide)
  have hplain : ∀ c ∈ plainChars .indent line.toList, isBlank c = true := by
    intro c hc
    rw [plainChars, emptyLiterals_of_no_quote hquotes] at hc
    exact hblank c (beforeMark_subset _ _ hc)
  have hopens : (plainChars .indent line.toList).countP opensBracket = 0 := by
    rw [List.countP_eq_zero]
    intro c hc hopen
    obtain (rfl | rfl) | rfl := by simpa [opensBracket] using hopen
    all_goals exact absurd (hplain _ hc) (by decide)
  have hcloses : (plainChars .indent line.toList).countP closesBracket = 0 := by
    rw [List.countP_eq_zero]
    intro c hc hclose
    obtain (rfl | rfl) | rfl := by simpa [closesBracket] using hclose
    all_goals exact absurd (hplain _ hc) (by decide)
  rw [plainDepth, depthChange, hopens, hcloses]
  rfl

end Lines

section Extents

/-- In a block no line stands in the first column unless it closes a bracket or brackets above it
are open. -/
theorem open_in_indentExtent {depth : Int} {lines before after : List String} {line : String}
    (hsplit : lines.take (indentExtent depth lines) = before ++ line :: after)
    (hflush : startsFlush line.toList = true) : 0 < depth + openBrackets before := by
  fun_induction indentExtent depth lines generalizing before with
  | case1 => simp at hsplit
  | case2 depth first rest hblank hnone ih => simp at hsplit
  | case3 depth first rest hblank more hmore ih =>
    rw [List.take_succ_cons, ← Nat.succ_eq_add_one, ← hmore] at hsplit
    cases before with
    | nil =>
      obtain ⟨rfl, -⟩ := List.cons.inj hsplit
      rw [not_startsFlush_of_blank hblank] at hflush
      cases hflush
    | cons top before =>
      obtain ⟨rfl, hrest⟩ := List.cons.inj hsplit
      have hopen := ih hrest
      simp only [openBrackets, List.map_cons, List.sum_cons] at hopen ⊢
      rw [plainDepth_of_blank hblank]
      omega
  | case4 depth first rest hblank hends => simp at hsplit
  | case5 depth first rest hblank hgoes ih =>
    rw [Nat.add_comm, List.take_succ_cons] at hsplit
    cases before with
    | nil =>
      obtain ⟨rfl, -⟩ := List.cons.inj hsplit
      simp only [hflush, Bool.and_true, decide_eq_true_eq] at hgoes
      simp only [openBrackets, List.map_nil, List.sum_nil]
      omega
    | cons top before =>
      obtain ⟨rfl, hrest⟩ := List.cons.inj hsplit
      have hopen := ih hrest
      simp only [openBrackets, List.map_cons, List.sum_cons] at hopen ⊢
      omega

/-- The first line below a block that is not blank stands in the first column and closes no
bracket. -/
theorem flush_below_indentExtent {depth : Int} {lines : List String} {line : String}
    (h : (lines.drop (indentExtent depth lines)).find? holdsText =
      some line) : startsFlush line.toList = true := by
  fun_induction indentExtent depth lines with
  | case1 => simp at h
  | case2 depth first rest hblank hnone ih =>
    rw [hnone] at ih
    rw [List.drop_zero, List.find?_cons_of_neg (by simp [holdsText, hblank])] at h
    exact ih h
  | case3 depth first rest hblank more hmore ih =>
    rw [List.drop_succ_cons, ← Nat.succ_eq_add_one, ← hmore] at h
    exact ih h
  | case4 depth first rest hblank hends =>
    rw [Bool.and_eq_true] at hends
    rw [List.drop_zero, List.find?_cons_of_pos (by simpa [holdsText] using hblank)] at h
    obtain rfl := Option.some.inj h
    exact hends.2
  | case5 depth first rest hblank hgoes ih =>
    rw [Nat.add_comm, List.drop_succ_cons] at h
    exact ih h

end Extents

section Below

variable {below : List String}

/-- Code is cut off below the lines just if the next code is indented. -/
theorem next_in_first_column_iff
    (hflush : ∀ line, below.find? holdsText = some line →
      startsFlush line.toList = true) :
    (∀ line, below.find? isCode = some line → startsInFirstColumn line = true) ↔
      ∀ passed code, ¬ CutOff below passed code := by
  constructor
  · intro hfirst passed code hcut
    obtain ⟨rest, hnext⟩ := hcut.next
    have hfind : below.find? isCode = some code := by
      rw [List.find?_eq_some_iff_append]
      exact ⟨hcut.proper, passed, rest, hnext, fun line hline => by simp [hcut.skipped line hline]⟩
    have hcolumn := hfirst code hfind
    rw [hcut.indented] at hcolumn
    cases hcolumn
  · intro hnone code hfind
    obtain ⟨hcode, passed, rest, hnext, hpassed⟩ := List.find?_eq_some_iff_append.mp hfind
    by_contra hindented
    have hindented' : startsInFirstColumn code = false := by simpa using hindented
    have htext : holdsText code = true := by
      rw [isCode, Bool.and_eq_true] at hcode
      exact hcode.1
    -- the code itself does not end the block, so some line above it does, which is a comment
    cases hends : passed.find? holdsText with
    | none =>
      have hcolumn := hflush code (by
        rw [hnext, List.find?_append, hends, List.find?_cons_of_pos htext]
        rfl)
      exact hindented (startsFlush_iff.mp hcolumn).1
    | some comment =>
      obtain ⟨hnot, gap, between, hsplit, hgap⟩ := List.find?_eq_some_iff_append.mp hends
      have hcolumn := hflush comment (by
        rw [hnext, List.find?_append, hends]
        rfl)
      have hmem : comment ∈ passed := by
        rw [hsplit]
        simp
      have hcomment : isComment comment = true := by
        have hskipped := hpassed comment hmem
        simpa [isCode, hnot] using hskipped
      refine hnone passed code ⟨⟨rest, hnext⟩, hcode, hindented', ?_, gap, comment, between,
        hsplit, ?_, head?_of_comment hcomment (startsFlush_iff.mp hcolumn).1⟩
      · intro line hline
        simpa using hpassed line hline
      · intro line hline
        simpa [holdsText] using hgap line hline

end Below

section Files

variable {file : SourceFile} {e e' : Definition}

/-- What stands below an indented block, from its head on. -/
theorem Headed.drop_stop {d : Descriptor} {above below : List String} {head : String}
    (h : Headed d above head below e) (hstyle : d.blockStyle = .indent) :
    (above ++ head :: below).drop e.stop =
      below.drop (indentExtent (plainDepth .indent head) below) := by
  have hlength : blockLength d (head :: below) =
      1 + indentExtent (plainDepth .indent head) below := by
    simp only [blockLength, hstyle]
  rw [h.stop, hlength, List.drop_append, List.drop_eq_nil_of_le (by omega),
    Nat.add_sub_cancel_left, Nat.add_comm, List.drop_succ_cons, List.nil_append]

/-- Indented code that is cut off from a definition is in no other one either: the heads of the
others are code in the first column, and so are their decorators. -/
theorem CutOff.outside {passed : List String} {code : String}
    (hcut : CutOff (file.lines.drop e.stop) passed code)
    (hd : file.descriptor ∈ Language.builtIn) (he : e ∈ file.definitions)
    (he' : e' ∈ file.definitions) :
    e'.stop ≤ e.stop + passed.length ∨ e.stop + passed.length + 1 < e'.start := by
  by_cases hsame : e = e'
  · subst hsame
    omega
  rcases precedes_or_precedes he he' hsame with hlater | hearlier
  · obtain ⟨above, head, below, hlines, hheaded, hbelow⟩ := hlater
    obtain ⟨rest, hnext⟩ := hcut.next
    have hcode : file.lines[e.stop + passed.length]? = some code := by
      rw [← List.getElem?_drop, hnext]
      simp
    obtain ⟨c, tail, hchars, hlatin⟩ := Language.definedName?_latin hd hheaded.name
    obtain ⟨hcolumn, hproper⟩ := code_of_isLatin hchars hlatin
    by_contra hinside
    rcases lt_trichotomy above.length (e.stop + passed.length) with hless | hequal | hmore
    · have hmem : head ∈ passed := by
        have hhead : passed[above.length - e.stop]? = some head := by
          have hbound : above.length - e.stop < passed.length := by omega
          have hplace : e.stop + (above.length - e.stop) = above.length := by omega
          have hget : (passed ++ code :: rest)[above.length - e.stop]? = some head := by
            rw [← hnext, List.getElem?_drop, hplace, hlines]
            simp
          rwa [List.getElem?_append_left hbound] at hget
        exact List.mem_of_getElem? hhead
      have hskipped := hcut.skipped head hmem
      rw [hproper] at hskipped
      cases hskipped
    · have hhead : head = code := by
        rw [← hequal, hlines] at hcode
        simpa using hcode
      have hindented := hcut.indented
      rw [← hhead, hcolumn] at hindented
      cases hindented
    · have habove : above[e.stop + passed.length]? = some code := by
        rw [hlines, List.getElem?_append_left hmore] at hcode
        exact hcode
      have hdropped : code ∈ above.drop (e.stop + passed.length) :=
        List.mem_of_getElem? (i := 0) (by rwa [List.getElem?_drop, Nat.add_zero])
      have hmark := ((hheaded.start_le_iff hmore).mp (by omega)).2 code hdropped
      have hindented := hcut.indented
      rw [startsInFirstColumn_of_decorator hmark] at hindented
      cases hindented
  · obtain ⟨above, head, below, -, hheaded, hbelow⟩ := hearlier
    have hlower := hheaded.lt_stop
    omega

end Files

/-- In the block of a definition a line stands in the first column only to close a bracket or
within brackets. The next code below the block stands in the first column as well, unless the
block ends at a comment of the first column and the code below that is indented; then that code is
in no definition. -/
theorem next_code_flush_iff {file : SourceFile} (hstyle : file.descriptor.blockStyle = .indent)
    {e : Definition} (he : e ∈ file.definitions) :
    (∃ above head below, file.lines = above ++ head :: below ∧
      Headed file.descriptor above head below e ∧
      ∀ before line after, below.take (e.stop - (above.length + 1)) = before ++ line :: after →
        startsFlush line.toList = true → 0 < openBrackets (head :: before)) ∧
    ((∀ line, (file.lines.drop e.stop).find? isCode = some line →
        startsInFirstColumn line = true) ↔
      ∀ passed code, ¬ CutOff (file.lines.drop e.stop) passed code) ∧
    (file.descriptor ∈ Language.builtIn → ∀ passed code,
      CutOff (file.lines.drop e.stop) passed code → ∀ e' ∈ file.definitions,
        e'.stop ≤ e.stop + passed.length ∨ e.stop + passed.length + 1 < e'.start) := by
  obtain ⟨above, head, below, hlines, hheaded⟩ := headed_of_mem he
  refine ⟨⟨above, head, below, hlines, hheaded, ?_⟩, ?_, ?_⟩
  · intro before line after hblock hflush
    have hextent : e.stop - (above.length + 1) =
        indentExtent (plainDepth .indent head) below := by
      have hstop := hheaded.stop
      simp only [blockLength, hstyle] at hstop
      omega
    rw [hextent] at hblock
    have hopen := open_in_indentExtent hblock hflush
    simpa [openBrackets] using hopen
  · apply next_in_first_column_iff
    intro line hline
    rw [hlines, hheaded.drop_stop hstyle] at hline
    exact flush_below_indentExtent hline
  · intro hd passed code hcut e' he'
    exact hcut.outside hd he he'

section CommentInBody

/-- A comment of the first column stands between the two statements of the function. -/
private def commentedFile : SourceFile :=
  ⟨⟨.root, ["a.py"]⟩, Language.python, ["def f():", "    a = 1", "# twice", "    return 2 * a"]⟩

private theorem definitions_commentedFile :
    commentedFile.definitions = [⟨"f", 1, 2, "def f():\n    a = 1"⟩] := by
  have hheads : Language.python.isImport "def f():" = false ∧
      Language.python.definedName? "def f():" = some "f" := by decide
  have hothers : ∀ line ∈ ["# twice", "    return 2 * a"],
      Language.python.definedName? line = none := by decide
  have hfunction : blockLength Language.python commentedFile.lines = 2 := by decide +kernel
  simp only [commentedFile] at hfunction
  simp [SourceFile.definitions, commentedFile, definitionsFrom, decorators, hheads, hothers,
    hfunction]
  decide

/-- The second statement is cut off, and in no definition. -/
theorem next_code_flush_iff_commentedFile :
    ∃ e ∈ commentedFile.definitions, e.stop = 2 ∧
      CutOff (commentedFile.lines.drop e.stop) ["# twice"] "    return 2 * a" ∧
      (¬ ∀ line, (commentedFile.lines.drop e.stop).find? isCode = some line →
        startsInFirstColumn line = true) ∧
      ∀ e' ∈ commentedFile.definitions, e'.stop ≤ 3 ∨ 4 < e'.start := by
  have he : ⟨"f", 1, 2, "def f():\n    a = 1"⟩ ∈ commentedFile.definitions := by
    rw [definitions_commentedFile]
    exact List.mem_singleton_self _
  have hcut : CutOff (commentedFile.lines.drop 2) ["# twice"] "    return 2 * a" :=
    ⟨⟨[], rfl⟩, by decide, by decide, by decide, [], "# twice", [], rfl, by simp, by decide⟩
  obtain ⟨-, hiff, houtside⟩ := next_code_flush_iff rfl he
  exact ⟨_, he, rfl, hcut, fun hfirst => hiff.mp hfirst _ _ hcut,
    houtside (by decide) _ _ hcut⟩

end CommentInBody

end SnippetRunner.Source
