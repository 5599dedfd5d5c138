import SnippetRunner.Source.Literal

/-!
The plain part of a line that goes on. A line on which every literal is closed is emptied of its
literals on its own, whatever stands behind it; and if a blank follows, either the line held a
comment already or what stands behind it is stripped on its own too.
-/
namespace SnippetRunner.Source

open Text

/-- Every quote that opens a literal is closed by another one. -/
inductive QuotesClosed : List Char → Prop
  | nil : QuotesClosed []
  | plain {c : Char} {rest : List Char} (hc : isQuote c = false) (hrest : QuotesClosed rest) :
      QuotesClosed (c :: rest)
  | literal {quote : Char} {rest after : List Char} (hquote : isQuote quote = true)
      (hafter : afterLiteral? quote rest = some after) (hrest : QuotesClosed after) :
      QuotesClosed (quote :: rest)

section Emptied

variable {c quote : Char} {cs rest after : List Char}

theorem emptyLiterals_plain (hc : isQuote c = false) (rest : List Char) :
    emptyLiterals (c :: rest) = c :: emptyLiterals rest := by
  rw [emptyLiterals, if_neg (by simp [hc])]

theorem emptyLiterals_literal (hquote : isQuote quote = true)
    (hafter : afterLiteral? quote rest = some after) :
    emptyLiterals (quote :: rest) = '"' :: '"' :: emptyLiterals after := by
  rw [emptyLiterals, if_pos hquote]
  split
  · rename_i found hfound
    rw [hafter] at hfound
    cases hfound
    rfl
  · rename_i hnone
    rw [hafter] at hnone
    cases hnone

theorem quotesClosed_of_no_quote (h : ∀ c ∈ cs, isQuote c = false) : QuotesClosed cs := by
  induction cs with
  | nil => exact .nil
  | cons c cs ih =>
    exact .plain (h c (List.mem_cons_self ..)) (ih fun d hd => h d (List.mem_cons_of_mem _ hd))

theorem afterLiteral?_cons (hc : c ≠ '\\') (rest : List Char) :
    afterLiteral? quote (c :: rest) =
      if c == quote then some rest else afterLiteral? quote rest := by
  rw [afterLiteral?.eq_def]
  split
  · rename_i hnil
    cases hnil
  · rename_i hlone
    exact absurd (List.cons.inj hlone).1 hc
  · rename_i hpair
    exact absurd (List.cons.inj hpair).1 hc
  · rename_i heq
    cases heq
    rfl

private theorem not_backslash (hlone : c = '\\' → rest = [] → False)
    (hpair : ∀ d tail, c = '\\' → rest = d :: tail → False) : c ≠ '\\' := by
  intro hc
  cases rest with
  | nil => exact hlone hc rfl
  | cons d tail => exact hpair d tail hc rfl

/-- A literal that is closed ends where it ended, also when more stands behind it. -/
theorem afterLiteral?_append (h : afterLiteral? quote cs = some rest) (more : List Char) :
    afterLiteral? quote (cs ++ more) = some (rest ++ more) := by
  fun_induction afterLiteral? quote cs with
  | case1 => cases h
  | case2 => cases h
  | case3 => cases h
  | case4 c tail hc ih =>
    simp only [List.cons_append, afterLiteral?, hc]
    exact ih h
  | case5 c tail hlone hpair hc =>
    cases h
    rw [List.cons_append, afterLiteral?_cons (not_backslash hlone hpair), if_pos hc]
  | case6 c tail hlone hpair hc ih =>
    rw [List.cons_append, afterLiteral?_cons (not_backslash hlone hpair), if_neg hc]
    exact ih h

theorem QuotesClosed.append (h : QuotesClosed cs) (hrest : QuotesClosed rest) :
    QuotesClosed (cs ++ rest) := by
  induction h with
  | nil => exact hrest
  | plain hc _ ih => exact .plain hc ih
  | literal hquote hafter _ ih =>
    exact .literal hquote (afterLiteral?_append hafter rest) ih

theorem emptyLiterals_of_no_quote (h : ∀ c ∈ cs, isQuote c = false) : emptyLiterals cs = cs := by
  induction cs with
  | nil => simp [emptyLiterals]
  | cons c cs ih =>
    rw [emptyLiterals_plain (h c (List.mem_cons_self ..)),
      ih fun d hd => h d (List.mem_cons_of_mem _ hd)]

theorem QuotesClosed.emptyLiterals_append (h : QuotesClosed cs) (more : List Char) :
    emptyLiterals (cs ++ more) = emptyLiterals cs ++ emptyLiterals more := by
  induction h with
  | nil => simp [emptyLiterals]
  | plain hc hrest ih =>
    rw [List.cons_append, emptyLiterals_plain hc, emptyLiterals_plain hc, ih, List.cons_append]
  | literal hquote hafter hrest ih =>
    rw [List.cons_append, emptyLiterals_literal hquote (afterLiteral?_append hafter more),
      emptyLiterals_literal hquote hafter, ih, List.cons_append, List.cons_append]

end Emptied

section Marked

variable {style : BlockStyle} {line cs rest : List Char}

theorem beforeMark_subset (mark cs : List Char) : beforeMark mark cs ⊆ cs := by
  induction cs with
  | nil => simp [beforeMark]
  | cons c cs ih =>
    rw [beforeMark]
    split
    · simp
    · exact List.cons_subset_cons c ih

/-- No mark of a comment reaches over a blank. -/
theorem isPrefixOf_commentMark (style : BlockStyle) (c : Char) (cs rest : List Char) :
    style.commentMark.toList.isPrefixOf (c :: (cs ++ ' ' :: rest)) =
      style.commentMark.toList.isPrefixOf (c :: cs) := by
  cases style <;> cases cs <;> simp [BlockStyle.commentMark, List.isPrefixOf]

/-- Either the mark of a comment stands before a blank, or it is looked for behind it. -/
theorem beforeMark_blank (style : BlockStyle) (cs rest : List Char) :
    beforeMark style.commentMark.toList (cs ++ ' ' :: rest) =
        beforeMark style.commentMark.toList cs ∨
      beforeMark style.commentMark.toList (cs ++ ' ' :: rest) =
        beforeMark style.commentMark.toList cs ++
          ' ' :: beforeMark style.commentMark.toList rest := by
  induction cs with
  | nil =>
    right
    cases style <;> simp [beforeMark, BlockStyle.commentMark, List.isPrefixOf]
  | cons c cs ih =>
    rw [List.cons_append, beforeMark, beforeMark, isPrefixOf_commentMark]
    split
    · exact Or.inl rfl
    · exact ih.imp (congrArg (List.cons c)) (congrArg (List.cons c))

theorem plainChars_blank (h : QuotesClosed line) (style : BlockStyle) (rest : List Char) :
    plainChars style (line ++ ' ' :: rest) = plainChars style line ∨
      plainChars style (line ++ ' ' :: rest) =
        plainChars style line ++ ' ' :: plainChars style rest := by
  rw [plainChars, h.emptyLiterals_append, emptyLiterals_plain (by decide)]
  exact beforeMark_blank style (emptyLiterals line) (emptyLiterals rest)

theorem plainChars_comment (style : BlockStyle) (text : List Char) :
    plainChars style (style.commentMark.toList ++ text) = [] := by
  have hmark : ∀ c ∈ style.commentMark.toList, isQuote c = false := by
    cases style <;> simp [BlockStyle.commentMark, isQuote]
  rw [plainChars, (quotesClosed_of_no_quote hmark).emptyLiterals_append,
    emptyLiterals_of_no_quote hmark]
  cases style <;> simp [BlockStyle.commentMark, beforeMark, List.isPrefixOf]

end Marked

end SnippetRunner.Source
