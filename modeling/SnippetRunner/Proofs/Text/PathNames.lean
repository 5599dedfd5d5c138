import Mathlib.Data.List.Basic
import SnippetRunner.Path

/-!
Names as parts of paths. A text that is a proper name, without a slash and other than the empty
text and the dots, is read as a path of that name alone, and the text of a relative path of proper
names is read as that path. A path goes on from another one by names.
-/
namespace SnippetRunner.Path

/-- A text that can stand as one name of a path: an entry of some directory and not one of the
names that lead back to it or above it. -/
structure IsName (name : String) : Prop where
  nonempty : name ≠ ""
  not_here : name ≠ "."
  not_above : name ≠ ".."
  no_slash : '/' ∉ name.toList

instance (name : String) : Decidable (IsName name) :=
  decidable_of_iff (name ≠ "" ∧ name ≠ "." ∧ name ≠ ".." ∧ '/' ∉ name.toList)
    ⟨fun ⟨hempty, hhere, habove, hslash⟩ => ⟨hempty, hhere, habove, hslash⟩,
      fun h => ⟨h.nonempty, h.not_here, h.not_above, h.no_slash⟩⟩

structure Down (p : Path) : Prop where
  relative : p.anchor = .here
  names : ∀ name ∈ p.parts, IsName name

/-- The path that goes on from another one by some names. -/
def under (base : Path) (names : List String) : Path :=
  ⟨base.anchor, base.parts ++ names⟩

theorem under_nil (base : Path) : base.under [] = base := by
  simp [under]

theorem under_inj {base : Path} {names names' : List String} :
    base.under names = base.under names' ↔ names = names' := by
  simp [under]

theorem under_parent (base : Path) (names : List String) (name : String) :
    (base.under (names ++ [name])).parent = base.under names := by
  rw [parent, under, ← List.append_assoc, List.dropLast_concat]
  rfl

theorem under_entry (base : Path) (names : List String) (name : String) :
    (base.under names).entry name = base.under (names ++ [name]) := by
  rw [entry, under, under, List.append_assoc]

theorem relativeTo?_under (base : Path) (names : List String) :
    (base.under names).relativeTo? base = some ⟨.here, names⟩ := by
  simp [under, relativeTo?]

theorem toString_of_parts {p : Path} (h : p.isAbsolute = true ∨ p.parts ≠ []) :
    p.toString = anchorText p.anchor ++ String.intercalate "/" p.parts := by
  obtain ⟨anchor, parts⟩ := p
  cases anchor with
  | here =>
    cases parts with
    | nil => simp [isAbsolute] at h
    | cons first rest => rfl
  | _ => rfl

theorem splitChars_of_not_mem {sep : Char} {cs : List Char} (h : sep ∉ cs) :
    Text.splitChars sep cs = [cs] := by
  induction cs with
  | nil => rfl
  | cons c rest ih =>
    rw [List.mem_cons, not_or] at h
    have hc : (c == sep) = false := beq_false_of_ne (Ne.symm h.1)
    simp [Text.splitChars, ih h.2, hc]

theorem splitChars_ne_nil (sep : Char) (cs : List Char) : Text.splitChars sep cs ≠ [] := by
  cases cs with
  | nil => exact List.cons_ne_nil _ _
  | cons c rest =>
    rw [Text.splitChars]
    split
    · exact List.cons_ne_nil _ _
    · split <;> exact List.cons_ne_nil _ _

theorem splitChars_append_cons {sep : Char} {cs : List Char} (h : sep ∉ cs) (rest : List Char) :
    Text.splitChars sep (cs ++ sep :: rest) = cs :: Text.splitChars sep rest := by
  obtain ⟨piece, pieces, hsplit⟩ := List.exists_cons_of_ne_nil (splitChars_ne_nil sep rest)
  induction cs with
  | nil => simp [Text.splitChars, hsplit]
  | cons c cs ih =>
    rw [List.mem_cons, not_or] at h
    have hc : (c == sep) = false := beq_false_of_ne (Ne.symm h.1)
    simp [Text.splitChars, ih h.2, hc]

theorem not_mem_splitChars {sep : Char} {cs : List Char} :
    ∀ piece ∈ Text.splitChars sep cs, sep ∉ piece := by
  induction cs with
  | nil => simp [Text.splitChars]
  | cons c rest ih =>
    obtain ⟨piece, pieces, hsplit⟩ := List.exists_cons_of_ne_nil (splitChars_ne_nil sep rest)
    rw [hsplit, List.forall_mem_cons] at ih
    by_cases hc : c = sep
    · simpa [Text.splitChars, hsplit, hc] using ih
    · simpa [Text.splitChars, hsplit, hc, Ne.symm hc] using ih

/-- The pieces between the separators make up the whole with them. -/
theorem intercalate_splitChars (sep : Char) (cs : List Char) :
    [sep].intercalate (Text.splitChars sep cs) = cs := by
  induction cs with
  | nil => simp [Text.splitChars]
  | cons c rest ih =>
    obtain ⟨piece, pieces, hsplit⟩ := List.exists_cons_of_ne_nil (splitChars_ne_nil sep rest)
    rw [hsplit] at ih
    by_cases hc : c = sep
    · rw [Text.splitChars, hsplit]
      simp [hc, List.intercalate_cons_of_ne_nil, ih]
    · rw [Text.splitChars, hsplit]
      cases pieces with
      | nil => simpa [hc] using ih
      | cons next more => simpa [hc, List.intercalate_cons_of_ne_nil] using ih

/-- Pieces that are put together with a separator that none of them has come apart again. -/
theorem splitChars_intercalate {sep : Char} {pieces : List (List Char)} (hne : pieces ≠ [])
    (h : ∀ piece ∈ pieces, sep ∉ piece) :
    Text.splitChars sep ([sep].intercalate pieces) = pieces := by
  induction pieces with
  | nil => exact absurd rfl hne
  | cons piece rest ih =>
    obtain ⟨hpiece, hrest⟩ := List.forall_mem_cons.mp h
    by_cases hmore : rest = []
    · subst hmore
      simpa using splitChars_of_not_mem hpiece
    · rw [List.intercalate_cons_of_ne_nil hmore, List.append_assoc, List.singleton_append,
        splitChars_append_cons hpiece, ih hmore hrest]

theorem splitAt_intercalate {sep : Char} {pieces : List String} (hne : pieces ≠ [])
    (h : ∀ piece ∈ pieces, sep ∉ piece.toList) :
    Text.splitAt sep ((String.singleton sep).intercalate pieces) = pieces := by
  have hpieces : ∀ piece ∈ pieces.map String.toList, sep ∉ piece := by
    simpa using h
  rw [Text.splitAt, String.toList_intercalate, String.toList_singleton,
    splitChars_intercalate (by simpa using hne) hpieces]
  simp

theorem partsOf_of_no_slash {name : String} (hslash : '/' ∉ name.toList) (hempty : name ≠ "")
    (hdot : name ≠ ".") : partsOf name = [name] := by
  simp [partsOf, Text.splitAt, splitChars_of_not_mem hslash, hempty, hdot]

theorem anchorOf_of_not_mem {cs : List Char} (h : '/' ∉ cs) : anchorOf cs = .here := by
  cases cs with
  | nil => rfl
  | cons c rest =>
    rw [List.mem_cons, not_or] at h
    unfold anchorOf
    split <;> simp_all

theorem ofString_isName {name : String} (h : IsName name) : ofString name = ⟨.here, [name]⟩ := by
  rw [ofString, anchorOf_of_not_mem h.no_slash,
    partsOf_of_no_slash h.no_slash h.nonempty h.not_here]

theorem child_isName {base : Path} {name : String} (h : IsName name) :
    base.child name = base.entry name := by
  rw [child, ofString_isName h]
  rfl

theorem join_down {base p : Path} (h : Down p) : base.join p = base.under p.parts := by
  have hrelative : p.isAbsolute = false := by simp [isAbsolute, h.relative]
  simp [join, hrelative, under]

/-- A relative path of proper names is read from its text. -/
theorem partsOf_toString {names : List String} (hne : names ≠ []) (h : ∀ n ∈ names, IsName n) :
    partsOf (toString ⟨.here, names⟩) = names := by
  have hsplit : Text.splitAt '/' (String.intercalate "/" names) = names :=
    splitAt_intercalate hne fun n hn => (h n hn).no_slash
  have htext : toString ⟨.here, names⟩ = String.intercalate "/" names := by
    rw [toString_of_parts (.inr hne), anchorText, String.empty_append]
  rw [htext, partsOf, hsplit, List.filter_eq_self]
  intro n hn
  simp [(h n hn).nonempty, (h n hn).not_here]

theorem toString_inj {names names' : List String} (hne : names ≠ []) (hne' : names' ≠ [])
    (h : ∀ n ∈ names, IsName n) (h' : ∀ n ∈ names', IsName n)
    (heq : toString ⟨.here, names⟩ = toString ⟨.here, names'⟩) : names = names' := by
  rw [← partsOf_toString hne h, heq, partsOf_toString hne' h']

end SnippetRunner.Path
