import SnippetRunner.Text.Lines
import SnippetRunner.Text.Template
import Mathlib.Data.List.TakeWhile

/-!
Filling a template whose slots all stand for whole values. The template is read before any value
is looked at, so the text is that of the template with the values in the places of the slots,
character by character, whatever braces the values hold.
-/
namespace SnippetRunner.Text

def Contains (whole part : String) : Prop :=
  part.toList <:+: whole.toList

def ContainsInOrder : List Char → List String → Prop
  | _, [] => True
  | whole, part :: rest =>
    ∃ before after, whole = before ++ part.toList ++ after ∧ ContainsInOrder after rest

section Passages

theorem Contains.trans {whole middle part : String} (h : Contains whole middle)
    (h' : Contains middle part) : Contains whole part :=
  List.IsInfix.trans h' h

theorem ContainsInOrder.append (post : List Char) : ∀ {whole : List Char} {parts : List String},
    ContainsInOrder whole parts → ContainsInOrder (whole ++ post) parts
  | _, [], _ => trivial
  | _, _ :: _, ⟨before, after, hwhole, hrest⟩ =>
    ⟨before, after ++ post, by simp [hwhole], hrest.append post⟩

theorem ContainsInOrder.prepend (pre : List Char) {whole : List Char} {parts : List String}
    (h : ContainsInOrder whole parts) : ContainsInOrder (pre ++ whole) parts := by
  cases parts with
  | nil => trivial
  | cons part rest =>
    obtain ⟨before, after, rfl, hrest⟩ := h
    exact ⟨pre ++ before, after, by simp, hrest⟩

/-- What stands in a passage in some order stands so in the whole text. -/
theorem ContainsInOrder.of_contains {whole middle : String} {parts : List String}
    (h : Contains whole middle) (h' : ContainsInOrder middle.toList parts) :
    ContainsInOrder whole.toList parts := by
  obtain ⟨pre, post, hwhole⟩ := h
  rw [← hwhole]
  exact (h'.prepend pre).append post

theorem ContainsInOrder.contains_of_mem {part : String} : ∀ {whole : List Char}
    {parts : List String}, ContainsInOrder whole parts → part ∈ parts → part.toList <:+: whole
  | _, first :: _, ⟨before, after, hwhole, hrest⟩, hmem => by
    rcases List.mem_cons.mp hmem with rfl | hmem
    · exact ⟨before, after, hwhole.symm⟩
    · obtain ⟨pre, post, hafter⟩ := hrest.contains_of_mem hmem
      exact ⟨before ++ first.toList ++ pre, post, by simp [hwhole, ← hafter]⟩

theorem containsInOrder_intercalate (separator : String) (parts : List String) :
    ContainsInOrder (String.intercalate separator parts).toList parts := by
  induction parts with
  | nil => trivial
  | cons part rest ih =>
    by_cases hrest : rest = []
    · subst hrest
      exact ⟨[], [], by simp, trivial⟩
    · rw [String.intercalate_cons_of_ne_nil hrest]
      exact ⟨[], separator.toList ++ (String.intercalate separator rest).toList, by simp,
        ih.prepend _⟩

theorem contains_intercalate {separator part : String} {parts : List String}
    (h : part ∈ parts) : Contains (String.intercalate separator parts) part :=
  (containsInOrder_intercalate separator parts).contains_of_mem h

theorem contains_strip (text : String) : Contains text (strip text) := by
  have hright : ∀ cs : List Char, trimRight isBlank cs <+: cs := by
    intro cs
    have hsuffix : cs.reverse.dropWhile isBlank <:+ cs.reverse := List.dropWhile_suffix _
    rw [trimRight, ← List.reverse_suffix, List.reverse_reverse]
    exact hsuffix
  have hleft : trimLeft isBlank text.toList <:+ text.toList := List.dropWhile_suffix _
  rw [Contains, strip, String.toList_ofList]
  exact (hright _).isInfix.trans hleft.isInfix

end Passages

def Slot.isPlain (names : List String) (s : Slot) : Bool :=
  s.conversion.isNone && s.spec.isEmpty && !s.name.isEmpty &&
    s.name.all (fun c => c != '.' && c != '[') && (indexNumeral? s.name).isNone &&
    names.contains (String.ofList s.name)

def Piece.isPlain (names : List String) : Piece → Bool
  | .literal _ => true
  | .slot s => s.isPlain names
  | .broken _ => false

def Piece.filled (values : List (String × String)) : Piece → List Char
  | .literal c => [c]
  | .slot s => ((values.lookup (String.ofList s.name)).getD "").toList
  | .broken _ => []

def piecesOf (template : String) : List Piece :=
  readPieces .outside template.toList

section Filling

variable {values : List (String × String)}

theorem slotValue_of_isPlain {s : Slot} (h : s.isPlain (values.map (·.1)) = true) :
    slotValue values s.name = .ok ((Piece.slot s).filled values) := by
  simp only [Slot.isPlain, Bool.and_eq_true, Bool.not_eq_true', List.all_eq_true,
    List.contains_eq_mem, decide_eq_true_eq] at h
  obtain ⟨⟨⟨⟨⟨-, -⟩, hname⟩, hplain⟩, hindex⟩, hmem⟩ := h
  have hwhole : ∀ c ∈ s.name, (c != '.' && c != '[') = true := by
    simpa only [Bool.and_eq_true] using hplain
  have hfirst : s.name.takeWhile (fun c => c != '.' && c != '[') = s.name :=
    List.takeWhile_eq_self_iff.mpr hwhole
  have hsteps : s.name.dropWhile (fun c => c != '.' && c != '[') = [] :=
    List.dropWhile_eq_nil_iff.mpr hwhole
  obtain ⟨value, hvalue⟩ : ∃ value, values.lookup (String.ofList s.name) = some value := by
    rw [← Option.isSome_iff_exists, List.lookup_isSome_iff]
    obtain ⟨pair, hpair, heq⟩ := List.mem_map.mp hmem
    exact ⟨pair, hpair, by simp [heq]⟩
  have hindex : indexNumeral? s.name = none := by simpa using hindex
  simp [slotValue, hfirst, hsteps, hname, hindex, hvalue, followSteps, Piece.filled]

/-- Pieces whose slots are plain are filled with the values as they are. -/
theorem fillPieces_of_isPlain (depth : Nat) {pieces : List Piece}
    (h : ∀ p ∈ pieces, p.isPlain (values.map (·.1)) = true) :
    fillPieces values depth pieces = .ok (pieces.flatMap (·.filled values)) := by
  induction pieces with
  | nil => simp [fillPieces]
  | cons p rest ih =>
    have hrest := ih fun q hq => h q (List.mem_cons_of_mem _ hq)
    have hp := h p (by simp)
    cases p with
    | literal c => simp [fillPieces, hrest, Piece.filled, bind, Except.bind, pure, Except.pure]
    | broken reason => simp [Piece.isPlain] at hp
    | slot s =>
      have hvalue := slotValue_of_isPlain hp
      obtain ⟨hconversion, hspec⟩ : s.conversion = none ∧ s.spec = [] := by
        simp only [Piece.isPlain, Slot.isPlain, Bool.and_eq_true] at hp
        simpa using And.intro hp.1.1.1.1.1 hp.1.1.1.1.2
      simp [fillPieces, hvalue, hconversion, hspec, hrest, convert, bind, Except.bind, pure,
        Except.pure]

theorem fillTemplate_of_isPlain {template : String}
    (h : ∀ p ∈ piecesOf template, p.isPlain (values.map (·.1)) = true) :
    fillTemplate template values =
      .ok (String.ofList ((piecesOf template).flatMap (·.filled values))) := by
  rw [fillTemplate, ← piecesOf, fillPieces_of_isPlain 1 h]
  rfl

/-- The value of a slot stands in the filled text. -/
theorem contains_of_slot {pieces : List Piece} {s : Slot} {value : String}
    (hslot : .slot s ∈ pieces) (hvalue : values.lookup (String.ofList s.name) = some value) :
    Contains (String.ofList (pieces.flatMap (·.filled values))) value := by
  have hfilled : (Piece.slot s).filled values = value.toList := by simp [Piece.filled, hvalue]
  obtain ⟨before, after, rfl⟩ := List.append_of_mem hslot
  refine ⟨before.flatMap (·.filled values), after.flatMap (·.filled values), ?_⟩
  simp [List.flatMap_append, hfilled]

end Filling

end SnippetRunner.Text
