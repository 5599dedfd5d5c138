import Mathlib.Algebra.Ring.Int.Defs
import Mathlib.Data.List.Induction
import SnippetRunner.Proofs.Source.Comments
import SnippetRunner.Proofs.Source.References

/-!
Lines of plain pieces and literals. What is scanned of such a line, with or without a comment behind
it, is the line with each literal emptied, so that its names and its bracket depth are those of its
plain pieces alone.
-/
namespace SnippetRunner.Source

open Text

/-- What may stand between the quotes of a literal: characters other than the quote and a backslash,
and pairs of a backslash and any character. -/
inductive Inside (quote : Char) : List Char → Prop
  | nil : Inside quote []
  | escaped {c : Char} {rest : List Char} : Inside quote rest → Inside quote ('\\' :: c :: rest)
  | other {c : Char} {rest : List Char} : c ≠ quote → c ≠ '\\' → Inside quote rest →
      Inside quote (c :: rest)

/-- A piece of a line: some text without quotes, or a literal between two quotes of one kind. -/
inductive Piece
  | plain (text : List Char) (noQuote : ∀ c ∈ text, isQuote c = false)
  | literal (quote : Char) (inside : List Char) (opens : isQuote quote = true)
      (closed : Inside quote inside)

namespace Piece

def written : Piece → List Char
  | .plain text _ => text
  | .literal quote inside _ _ => quote :: inside ++ [quote]

def emptied : Piece → List Char
  | .plain text _ => text
  | .literal .. => ['"', '"']

/-- The plain pieces of a line, those that stand side by side put together. -/
def plainRuns : List Piece → List (List Char)
  | [] => [[]]
  | .plain text _ :: rest => (plainRuns rest).modifyHead (text ++ ·)
  | .literal .. :: rest => [] :: plainRuns rest

end Piece

def writtenLine (pieces : List Piece) : List Char :=
  pieces.flatMap Piece.written

def emptiedLine (pieces : List Piece) : List Char :=
  pieces.flatMap Piece.emptied

/-- The line by itself, or with a comment behind it that cannot begin earlier than it does. -/
inductive WithComment (style : BlockStyle) (line : List Char) : List Char → Prop
  | none : WithComment style line line
  | behind (text : List Char) : (style = .braces → line.getLast? ≠ some '/') →
      WithComment style line (line ++ style.commentMark.toList ++ text)

section Literals

variable {quote : Char} {inside : List Char} {pieces : List Piece}

/-- A literal ends at the quote that closes it. -/
theorem Inside.afterLiteral? (h : Inside quote inside) (hquote : isQuote quote = true)
    (hline : '\n' ∉ inside) (rest : List Char) :
    afterLiteral? quote (inside ++ quote :: rest) = some rest := by
  have hslash : quote ≠ '\\' := by
    rintro rfl
    cases hquote
  induction h with
  | nil => simp [afterLiteral?_cons hslash]
  | @escaped c rest' _ ih =>
    simp only [List.mem_cons, not_or] at hline
    rw [List.cons_append, List.cons_append, Source.afterLiteral?]
    rw [if_neg (by simpa using Ne.symm hline.2.1), ih hline.2.2]
  | @other c rest' hc hother _ ih =>
    simp only [List.mem_cons, not_or] at hline
    rw [List.cons_append, afterLiteral?_cons hother, if_neg (by simpa using hc), ih hline.2]

/-- Each literal of a line is emptied, and what stands behind the line on its own. -/
theorem emptyLiterals_written (hline : '\n' ∉ writtenLine pieces) (more : List Char) :
    emptyLiterals (writtenLine pieces ++ more) = emptiedLine pieces ++ emptyLiterals more := by
  induction pieces with
  | nil => rfl
  | cons piece pieces ih =>
    rw [writtenLine, List.flatMap_cons, List.mem_append, not_or] at hline
    have hrest := ih hline.2
    rw [writtenLine, emptiedLine, List.flatMap_cons, List.flatMap_cons, List.append_assoc,
      List.append_assoc]
    cases piece with
    | plain text noQuote =>
      have hplain : QuotesClosed text := quotesClosed_of_no_quote noQuote
      rw [Piece.written, hplain.emptyLiterals_append, emptyLiterals_of_no_quote noQuote]
      exact congrArg (text ++ ·) hrest
    | literal quote inside opens closed =>
      have hinside : '\n' ∉ inside := by
        intro hmem
        exact hline.1 (by simp [Piece.written, hmem])
      have hafter := closed.afterLiteral? opens hinside (writtenLine pieces ++ more)
      rw [Piece.written, List.cons_append, List.cons_append, List.append_assoc]
      exact (emptyLiterals_literal opens hafter).trans (congrArg (['"', '"'] ++ ·) hrest)

/-- An emptied line ends with a slash only where the line does. -/
theorem getLast?_emptied (h : (emptiedLine pieces).getLast? = some '/') :
    (writtenLine pieces).getLast? = some '/' := by
  induction pieces using List.reverseRecOn with
  | nil => cases h
  | append_singleton pieces piece ih =>
    rw [emptiedLine, List.flatMap_append, List.flatMap_singleton, List.getLast?_append] at h
    rw [writtenLine, List.flatMap_append, List.flatMap_singleton, List.getLast?_append]
    cases piece with
    | plain text noQuote =>
      rw [Piece.emptied] at h
      rw [Piece.written]
      cases htext : text.getLast? with
      | none =>
        rw [htext, Option.none_or] at h
        exact ih h
      | some c => rwa [htext] at h
    | literal quote inside opens closed => cases h

end Literals

section Marks

variable {style : BlockStyle} {cs : List Char}

theorem beforeMark_of_absent {mark : List Char} (h : ¬ mark <:+: cs) : beforeMark mark cs = cs := by
  induction cs with
  | nil => rfl
  | cons c cs ih =>
    rw [List.infix_cons_iff, not_or, ← List.isPrefixOf_iff_prefix] at h
    rw [beforeMark, if_neg h.1, ih h.2]

/-- A comment begins with its mark if none stands before and none reaches into it. -/
theorem beforeMark_append_mark (h : ¬ style.commentMark.toList <:+: cs)
    (hend : style = .braces → cs.getLast? ≠ some '/') (rest : List Char) :
    beforeMark style.commentMark.toList (cs ++ style.commentMark.toList ++ rest) = cs := by
  induction cs with
  | nil => cases style <;> simp [BlockStyle.commentMark, beforeMark, List.isPrefixOf]
  | cons c cs ih =>
    rw [List.infix_cons_iff, not_or] at h
    have hrest : style = .braces → cs.getLast? ≠ some '/' := by
      intro hstyle hlast
      apply hend hstyle
      cases cs with
      | nil => cases hlast
      | cons d cs => rwa [List.getLast?_cons_cons]
    have hmark : ¬ style.commentMark.toList.isPrefixOf
        (c :: (cs ++ style.commentMark.toList ++ rest)) = true := by
      cases style with
      | indent =>
        simpa [BlockStyle.commentMark, List.isPrefixOf] using h.1
      | braces =>
        have hlast := hend rfl
        have hfirst := h.1
        cases cs with
        | nil =>
          have hc : c ≠ '/' := by simpa using hlast
          simp [BlockStyle.commentMark, List.isPrefixOf, Ne.symm hc]
        | cons d cs => simpa [BlockStyle.commentMark, List.isPrefixOf] using hfirst
    rw [List.cons_append, List.cons_append, beforeMark, if_neg hmark, ih h.2 hrest]

end Marks

section Runs

variable {pieces : List Piece} {runs : List (List Char)} {read cs : List Char}

theorem plainRuns_ne_nil (pieces : List Piece) : Piece.plainRuns pieces ≠ [] := by
  induction pieces with
  | nil => exact List.cons_ne_nil _ _
  | cons piece pieces ih =>
    cases piece with
    | plain text noQuote => rwa [Piece.plainRuns, Ne, List.modifyHead_eq_nil_iff]
    | literal quote inside opens closed => exact List.cons_ne_nil _ _

/-- An emptied line is its plain pieces with an empty literal between any two of them. -/
theorem emptiedLine_eq (pieces : List Piece) :
    emptiedLine pieces = ['"', '"'].intercalate (Piece.plainRuns pieces) := by
  induction pieces with
  | nil => rfl
  | cons piece pieces ih =>
    rw [emptiedLine, List.flatMap_cons]
    cases piece with
    | plain text noQuote =>
      obtain ⟨run, runs, hruns⟩ := List.exists_cons_of_ne_nil (plainRuns_ne_nil pieces)
      rw [← emptiedLine, ih, Piece.plainRuns, hruns, List.modifyHead_cons]
      cases runs with
      | nil => simp [Piece.emptied]
      | cons next runs => simp [Piece.emptied, List.intercalate_cons_of_ne_nil]
    | literal quote inside opens closed =>
      rw [← emptiedLine, ih, Piece.plainRuns,
        List.intercalate_cons_of_ne_nil (plainRuns_ne_nil pieces)]
      rfl

theorem not_isName_quote : isNameChar '"' = false ∧ isNameStart '"' = false := by
  decide

/-- A quote ends a name and begins none. -/
theorem namesFrom_quote (read cs : List Char) :
    namesFrom read (cs ++ ['"']) = namesFrom read cs := by
  induction cs generalizing read with
  | nil => cases read <;> simp [namesFrom, not_isName_quote]
  | cons c cs ih => simp only [List.cons_append, namesFrom, ih]

theorem namesFrom_runs (runs : List (List Char)) :
    namesFrom [] (['"', '"'].intercalate runs) = runs.flatMap (namesFrom []) := by
  induction runs with
  | nil => rfl
  | cons run runs ih =>
    by_cases hmore : runs = []
    · simp [hmore]
    · have hempty : ∀ rest, namesFrom [] ('"' :: rest) = namesFrom [] rest := by
        intro rest
        simp [namesFrom, not_isName_quote]
      rw [List.intercalate_cons_of_ne_nil hmore, List.append_assoc, List.cons_append,
        List.singleton_append, namesFrom_apart not_isName_quote.1, namesFrom_quote, hempty, ih,
        List.flatMap_cons]

theorem depthChange_runs (runs : List (List Char)) :
    depthChange (['"', '"'].intercalate runs) = (runs.map depthChange).sum := by
  induction runs with
  | nil => rfl
  | cons run runs ih =>
    by_cases hmore : runs = []
    · simp [hmore]
    · have hempty : depthChange ['"', '"'] = 0 := by decide
      rw [List.intercalate_cons_of_ne_nil hmore, depthChange_append, depthChange_append, hempty, ih,
        List.map_cons, List.sum_cons, Int.add_zero]

end Runs

section Scanned

variable {style : BlockStyle} {pieces : List Piece} {line : List Char}

/-- With or without a comment behind it a line of pieces is scanned as the emptied line. -/
theorem WithComment.plainChars_eq (h : WithComment style (writtenLine pieces) line)
    (hline : '\n' ∉ writtenLine pieces)
    (hmark : ¬ style.commentMark.toList <:+: emptiedLine pieces) :
    plainChars style line = emptiedLine pieces := by
  cases h with
  | none =>
    have hwritten := emptyLiterals_written hline []
    rw [List.append_nil] at hwritten
    rw [plainChars, hwritten, emptyLiterals, List.append_nil, beforeMark_of_absent hmark]
  | behind text hend =>
    have hplain : ∀ c ∈ style.commentMark.toList, isQuote c = false := by
      cases style <;> simp [BlockStyle.commentMark, isQuote]
    rw [plainChars, List.append_assoc, emptyLiterals_written hline,
      (quotesClosed_of_no_quote hplain).emptyLiterals_append, emptyLiterals_of_no_quote hplain,
      ← List.append_assoc]
    exact beforeMark_append_mark hmark (fun hstyle hlast => hend hstyle (getLast?_emptied hlast)) _

/-- The names in a text without literals and comments. -/
def plainNames (text : List Char) : List String :=
  (namesFrom [] text).map String.ofList

theorem identifiers_of_unbroken (h : Unbroken line) :
    identifiers style (String.ofList line) = lineNames style line := by
  rw [identifiers, String.toList_ofList]
  by_cases hne : line = []
  · subst hne
    simp [charLines, lineNames, plainChars, emptyLiterals, beforeMark, namesFrom]
  · rw [charLines_single h hne, List.flatMap_singleton]

/-- A line of plain pieces and literals in which no comment begins is scanned as the line with each
literal emptied. A comment behind it changes nothing. Its names and its bracket depth are those of
its plain pieces. -/
theorem plainPart_pieces (style : BlockStyle) (pieces : List Piece)
    (hline : '\n' ∉ writtenLine pieces)
    (hmark : ¬ style.commentMark.toList <:+: emptiedLine pieces) :
    plainPart style (String.ofList (writtenLine pieces)) = String.ofList (emptiedLine pieces) ∧
      ∀ line, WithComment style (writtenLine pieces) line →
        plainPart style (String.ofList line) =
            plainPart style (String.ofList (writtenLine pieces)) ∧
          plainDepth style (String.ofList line) =
            ((Piece.plainRuns pieces).map depthChange).sum ∧
          lineNames style line = (Piece.plainRuns pieces).flatMap plainNames ∧
          (Unbroken line → identifiers style (String.ofList line) =
            (Piece.plainRuns pieces).flatMap plainNames) := by
  have hplain : ∀ line, WithComment style (writtenLine pieces) line →
      plainChars style line = emptiedLine pieces := fun line h => h.plainChars_eq hline hmark
  have hpart : ∀ line, WithComment style (writtenLine pieces) line →
      plainPart style (String.ofList line) = String.ofList (emptiedLine pieces) := by
    intro line h
    rw [plainPart, String.toList_ofList, hplain line h]
  refine ⟨hpart _ .none, fun line h => ?_⟩
  have hnames : lineNames style line = (Piece.plainRuns pieces).flatMap plainNames := by
    rw [lineNames, hplain line h, emptiedLine_eq, namesFrom_runs, List.map_flatMap]
    rfl
  refine ⟨(hpart line h).trans (hpart _ .none).symm, ?_, hnames, fun hunbroken => ?_⟩
  · rw [plainDepth, String.toList_ofList, hplain line h, emptiedLine_eq, depthChange_runs]
  · rw [identifiers_of_unbroken hunbroken, hnames]

end Scanned

section Quoted

/-- A call with a comment mark and an escaped quote in one literal, and the other one's quote in
another. -/
private def quotedCall : List Piece :=
  [.plain ['f', '('] (by simp [isQuote]),
    .literal '"' ['#', '\\', '"'] rfl (.other (by decide) (by decide) (.escaped .nil)),
    .plain [',', ' '] (by simp [isQuote]),
    .literal '\'' ['"'] rfl (.other (by decide) (by decide) .nil),
    .plain [')'] (by simp [isQuote])]

/-- The comment has a quote in it that is not closed, and names and a bracket of its own. -/
theorem plainPart_pieces_quotedCall :
    writtenLine quotedCall = "f(\"#\\\"\", '\"')".toList ∧ '\n' ∉ writtenLine quotedCall ∧
      ¬ BlockStyle.indent.commentMark.toList <:+: emptiedLine quotedCall ∧
      WithComment .indent (writtenLine quotedCall) "f(\"#\\\"\", '\"')# g(it's".toList ∧
      plainPart .indent "f(\"#\\\"\", '\"')" = "f(\"\", \"\")" ∧
      plainPart .indent "f(\"#\\\"\", '\"')# g(it's" = "f(\"\", \"\")" ∧
      plainDepth .indent "f(\"#\\\"\", '\"')# g(it's" = 0 ∧
      identifiers .indent "f(\"#\\\"\", '\"')# g(it's" = ["f"] := by
  have hline : '\n' ∉ writtenLine quotedCall := by decide
  have hmark : ¬ BlockStyle.indent.commentMark.toList <:+: emptiedLine quotedCall := by decide
  have hcomment : WithComment .indent (writtenLine quotedCall)
      "f(\"#\\\"\", '\"')# g(it's".toList :=
    .behind " g(it's".toList nofun
  have hunbroken : Unbroken "f(\"#\\\"\", '\"')# g(it's".toList := by
    simp [Unbroken, isLineBreak]
  obtain ⟨hplain, hall⟩ := plainPart_pieces .indent quotedCall hline hmark
  obtain ⟨hsame, hdepth, -, hnames⟩ := hall _ hcomment
  refine ⟨rfl, hline, hmark, hcomment, hplain, hsame.trans hplain, hdepth, ?_⟩
  exact hnames hunbroken

end Quoted

end SnippetRunner.Source
