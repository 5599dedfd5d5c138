import SnippetRunner.Proofs.Language.Names
import SnippetRunner.Proofs.Source.Literals
import SnippetRunner.Proofs.Text.LineBreaks

/-!
Names that are defined and names that are used. The name that a line defines is among the names
used in that line just if it starts with a Latin letter, an underscore or a dollar sign, since any
other name is passed over up to its first such character. Only where a class may be called by any
word does this make a difference.
-/
namespace SnippetRunner.Source

open Text SnippetRunner.Language

section Scanned

variable {read cs word rest : List Char} {c : Char}

/-- Every name starts as a name may. -/
theorem isNameStart_of_mem_namesFrom (hread : ∀ c ∈ read.getLast?, isNameStart c = true)
    (h : word ∈ namesFrom read cs) : ∃ c ∈ word.head?, isNameStart c = true := by
  have hname : ∀ read : List Char, read ≠ [] → (∀ c ∈ read.getLast?, isNameStart c = true) →
      ∃ c ∈ read.reverse.head?, isNameStart c = true := by
    intro read hne hstart
    rw [List.head?_reverse, List.getLast?_eq_some_getLast hne] at *
    exact ⟨_, rfl, hstart _ rfl⟩
  induction cs generalizing read with
  | nil =>
    rw [namesFrom] at h
    split at h
    · simp at h
    · rename_i hne
      rw [List.mem_singleton.mp h]
      exact hname read (by simpa using hne) hread
  | cons c cs ih =>
    rw [namesFrom] at h
    split at h
    · refine ih ?_ h
      split
      · rename_i hc
        simpa using hc
      · simp
    · rename_i hne
      have hne : read ≠ [] := by simpa using hne
      split at h
      · refine ih ?_ h
        rwa [List.getLast?_cons_of_ne_nil hne]
      · rcases List.mem_cons.mp h with rfl | h
        · exact hname read hne hread
        · exact ih (by simp) h

/-- No name reaches over another character. -/
theorem namesFrom_apart (hc : isNameChar c = false) (read cs rest : List Char) :
    namesFrom read (cs ++ c :: rest) = namesFrom read (cs ++ [c]) ++ namesFrom [] rest := by
  have hstart : isNameStart c = false := by
    rw [← Bool.not_eq_true]
    intro hstart
    rw [isNameChar_of_isNameStart hstart] at hc
    cases hc
  induction cs generalizing read with
  | nil => cases read <;> simp [namesFrom, hc, hstart]
  | cons d cs ih =>
    simp only [List.cons_append, namesFrom, ih]
    split
    · rfl
    · split <;> simp

/-- A name goes on to its last character. -/
theorem mem_namesFrom_of_read (hread : read ≠ []) (hword : ∀ c ∈ word, isNameChar c = true)
    (hrest : ∀ c ∈ rest.head?, isNameChar c = false) :
    read.reverse ++ word ∈ namesFrom read (word ++ rest) := by
  induction word generalizing read with
  | nil =>
    cases rest with
    | nil => simp [namesFrom, hread]
    | cons c rest =>
      have hc : isNameChar c = false := hrest c rfl
      simp [namesFrom, hread, hc]
  | cons c word ih =>
    obtain ⟨hc, hword⟩ := List.forall_mem_cons.mp hword
    have hnext := ih (List.cons_ne_nil c read) hword
    simpa [namesFrom, hread, hc] using hnext

theorem mem_namesFrom (hstart : ∃ c ∈ word.head?, isNameStart c = true)
    (hword : ∀ c ∈ word, isNameChar c = true) (hrest : ∀ c ∈ rest.head?, isNameChar c = false) :
    word ∈ namesFrom [] (word ++ rest) := by
  obtain ⟨c, hc, hstart⟩ := hstart
  obtain ⟨tail, rfl⟩ := List.head?_eq_some_iff.mp hc
  have hnext := mem_namesFrom_of_read (List.cons_ne_nil c [])
    (List.forall_mem_cons.mp hword).2 hrest
  simpa [namesFrom, hstart] using hnext

end Scanned

section Plain

variable {cs : List Char} {style : BlockStyle}

theorem head_beforeMark (mark cs : List Char) :
    ∀ c ∈ (beforeMark mark cs).head?, c ∈ cs.head? := by
  cases cs with
  | nil => simp [beforeMark]
  | cons c cs =>
    rw [beforeMark]
    split <;> simp

theorem head_emptyLiterals (cs : List Char) :
    ∀ c ∈ (emptyLiterals cs).head?, c ∈ cs.head? ∨ isQuote c = true := by
  cases cs with
  | nil => simp [emptyLiterals]
  | cons c cs =>
    rw [emptyLiterals]
    split
    · split
      · simp [isQuote]
      · simp
    · simp

theorem beforeMark_append (h : ∀ c ∈ cs, c ∉ marks) (rest : List Char) :
    beforeMark style.commentMark.toList (cs ++ rest) =
      cs ++ beforeMark style.commentMark.toList rest := by
  induction cs with
  | nil => rfl
  | cons c cs ih =>
    obtain ⟨hc, hcs⟩ := List.forall_mem_cons.mp h
    have hmark : ¬ style.commentMark.toList.isPrefixOf (c :: (cs ++ rest)) = true := by
      simp only [marks, List.mem_cons, List.not_mem_nil, or_false, not_or] at hc
      cases style <;> simp [BlockStyle.commentMark, List.isPrefixOf, Ne.symm hc.2.2.1,
        Ne.symm hc.2.2.2]
    rw [List.cons_append, beforeMark, if_neg hmark, ih hcs, List.cons_append]

/-- What neither quotes nor begins a comment stays as it is. -/
theorem plainChars_append (h : ∀ c ∈ cs, c ∉ marks) (rest : List Char) :
    plainChars style (cs ++ rest) = cs ++ plainChars style rest := by
  have hquote : ∀ c ∈ cs, isQuote c = false := by
    intro c hc
    have hmark := h c hc
    simp only [marks, List.mem_cons, List.not_mem_nil, or_false, not_or] at hmark
    simp [isQuote, hmark.1, hmark.2.1]
  rw [plainChars, (quotesClosed_of_no_quote hquote).emptyLiterals_append,
    emptyLiterals_of_no_quote hquote, beforeMark_append h, plainChars]

theorem head_plainChars (style : BlockStyle) (cs : List Char) :
    ∀ c ∈ (plainChars style cs).head?, c ∈ cs.head? ∨ isQuote c = true :=
  fun c hc => head_emptyLiterals cs c (head_beforeMark _ _ c hc)

end Plain

/-- The name of a line is scanned as a whole just if it starts as a name may. -/
theorem mem_lineNames_iff {line before name after : List Char} (style : BlockStyle)
    (h : NamedAt line before name after) (hdollar : after.head? ≠ some '$') :
    String.ofList name ∈ lineNames style line ↔ ∃ c ∈ name.head?, isNameStart c = true := by
  -- Stripping may put a quote in the place of a literal behind the name, but nothing of a name.
  have hends : ∀ c ∈ (plainChars style after).head?, isNameChar c = false := by
    intro c hc
    rcases head_plainChars style after c hc with hafter | hquote
    · have hne : c ≠ '$' := by
        rintro rfl
        exact hdollar hafter
      simp [isNameChar, h.ends c hafter, hne]
    · simp only [isQuote, Bool.or_eq_true, beq_iff_eq] at hquote
      rcases hquote with rfl | rfl <;> decide
  have hmem : String.ofList name ∈ lineNames style line ↔
      name ∈ namesFrom [] (before ++ (name ++ plainChars style after)) := by
    rw [lineNames, h.line_eq, plainChars_append h.plain, List.append_assoc]
    exact List.mem_map_of_injective fun _ _ hsame => String.ofList_injective hsame
  rw [hmem]
  constructor
  · exact isNameStart_of_mem_namesFrom (by simp)
  · intro hstart
    have hname := mem_namesFrom hstart h.characters hends
    rcases List.eq_nil_or_concat' before with rfl | ⟨front, c, rfl⟩
    · exact hname
    · have hblank : isNameChar c = false := isNameChar_of_isBlank (h.blank c (by simp))
      rw [List.append_assoc, List.singleton_append, namesFrom_apart hblank]
      exact List.mem_append_right _ hname

/-- A name that a line defines stands in it. Unless a dollar sign follows it there, it is among the
names used in the line just if it starts with a Latin letter, an underscore or a dollar sign, as it
always does but for the classes of one language. -/
theorem definedName?_used_iff {d : Descriptor} (hd : d ∈ builtIn) {line name : String}
    (hline : Unbroken line.toList) (h : d.definedName? line = some name) :
    ∃ r before, d.behindName? line = some r ∧ r.named = some name.toList ∧
      line.toList = before ++ name.toList ++ r.rest ∧
      (r.rest.head? ≠ some '$' → (name ∈ identifiers d.blockStyle line ↔
        ∃ c ∈ name.toList.head?, isNameStart c = true)) ∧
      (d ≠ java → ∃ c ∈ name.toList.head?, isNameStart c = true) := by
  unfold Descriptor.definedName? at h
  split at h
  · rename_i p hp
    obtain ⟨front, body, back, hdelimits, hopening⟩ :=
      delimits_builtIn hd (List.mem_of_find?_eq_some hp)
    obtain ⟨r, before, hbehind, hnamed, hat, hfirst⟩ := hdelimits.namedAt h
    have hne : line.toList ≠ [] := by
      intro hnil
      have heq := hat.line_eq
      rw [hnil] at heq
      simp [hat.nonempty] at heq
    refine ⟨r, before, ?_, hnamed, hat.line_eq, ?_, ?_⟩
    · simp only [Descriptor.behindName?, hp, hbehind]
    · intro hdollar
      rw [← mem_lineNames_iff d.blockStyle hat hdollar, identifiers, charLines_single hline hne]
      simp
    · intro hjava
      obtain ⟨c, rest, hc⟩ := List.exists_cons_of_ne_nil hat.nonempty
      obtain ⟨k, hk, hholds⟩ := hfirst c (by rw [hc]; rfl)
      exact ⟨c, by rw [hc]; rfl, isNameStart_of_isNameSet (hopening hjava k hk) hholds⟩
  · cases h

section Umlaut

/-- A class may be called by a word that starts with an umlaut. What is scanned of its name is the
rest of it. -/
theorem definedName?_used_iff_umlaut :
    java.definedName? "class Über \x7b" = some "Über" ∧
      (∃ r, java.behindName? "class Über \x7b" = some r ∧ r.rest = [' ', '\x7b']) ∧
      "Über" ∉ identifiers java.blockStyle "class Über \x7b" ∧
      identifiers java.blockStyle "class Über \x7b" = ["class", "ber"] := by
  have hname : java.definedName? "class Über \x7b" = some "Über" := by decide
  have hlines : splitLines "class Über \x7b" = ["class Über \x7b"] := by cbv
  have hline : Unbroken "class Über \x7b".toList :=
    splitLines_unbroken "class Über \x7b" _ (by rw [hlines]; exact List.mem_singleton_self _)
  have hplace : (java.behindName? "class Über \x7b").map (·.rest) = some [' ', '\x7b'] := by
    decide
  obtain ⟨r, before, hbehind, -, -, hiff, -⟩ :=
    definedName?_used_iff (by simp [builtIn]) hline hname
  have hrest : r.rest = [' ', '\x7b'] := by simpa [hbehind] using hplace
  refine ⟨hname, ⟨r, hbehind, hrest⟩, ?_, by cbv⟩
  rw [hiff (by rw [hrest]; decide)]
  rintro ⟨c, hc, hstart⟩
  obtain rfl : 'Ü' = c := by simpa using hc
  exact absurd hstart (by decide)

end Umlaut

end SnippetRunner.Source
