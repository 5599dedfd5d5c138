import Mathlib.Data.List.Nodup
import SnippetRunner.Proofs.Language.Readings
import SnippetRunner.Proofs.Source.Layout
import SnippetRunner.Proofs.Text.EditorLines

/-!
Which definition of a name is picked. The definitions of a file are in the order of their first
lines and in that of their last lines. So the last one in a list that ends before a line is the
nearest above it, and the first one in a list of which none ends there is the nearest below.
-/
namespace SnippetRunner.Source

/-- Definitions in the order of their first lines and of their last lines. -/
def InOrder (definitions : List Definition) : Prop :=
  definitions.Pairwise fun a b => a.start < b.start ∧ a.stop < b.stop

/-- Of the definitions of a name the nearest one to the lines `first..last`: of those above them
the one that ends last, and of those below them, if none is above, the one that starts first. -/
inductive Nearest (definitions : List Definition) (first last : Int) (name : String)
    (e : Definition) : Prop
  | above (mem : e ∈ definitions) (named : e.name = name) (ends : (e.stop : Int) < first)
      (latest : ∀ b ∈ definitions, b.name = name → (b.stop : Int) < first → b.stop ≤ e.stop)
  | below (mem : e ∈ definitions) (named : e.name = name) (starts : last < (e.start : Int))
      (none_above : ∀ b ∈ definitions, b.name = name → ¬ (b.stop : Int) < first)
      (earliest : ∀ b ∈ definitions, b.name = name → last < (b.start : Int) → e.start ≤ b.start)

section Order

variable {cs : List Definition} {e : Definition}

theorem InOrder.filter (h : InOrder cs) (p : Definition → Bool) : InOrder (cs.filter p) :=
  List.Pairwise.filter p h

/-- In an ascending list no two items have the same measure. -/
theorem eq_of_ascending {α : Type} {f : α → Nat} {items : List α}
    (h : items.Pairwise fun a b => f a < f b) {a b : α} (ha : a ∈ items) (hb : b ∈ items)
    (hsame : f a = f b) : a = b := by
  have hnodup : (items.map f).Nodup := List.pairwise_map.mpr (h.imp fun hab => Nat.ne_of_lt hab)
  exact List.inj_on_of_nodup_map hnodup ha hb hsame

theorem InOrder.start_injective (h : InOrder cs) {a b : Definition} (ha : a ∈ cs) (hb : b ∈ cs)
    (hstart : a.start = b.start) : a = b :=
  eq_of_ascending (h.imp fun hab => hab.1) ha hb hstart

theorem InOrder.stop_injective (h : InOrder cs) {a b : Definition} (ha : a ∈ cs) (hb : b ∈ cs)
    (hstop : a.stop = b.stop) : a = b :=
  eq_of_ascending (h.imp fun hab => hab.2) ha hb hstop

/-- The last definition of a list is the one that ends last. -/
theorem InOrder.getLast?_eq_some_iff (h : InOrder cs) :
    cs.getLast? = some e ↔ e ∈ cs ∧ ∀ b ∈ cs, b.stop ≤ e.stop := by
  have hlast : ∀ {x}, cs.getLast? = some x → ∀ b ∈ cs, b.stop ≤ x.stop := by
    intro x hx b hb
    obtain ⟨front, rfl⟩ := List.getLast?_eq_some_iff.mp hx
    rcases List.mem_append.mp hb with hb | hb
    · exact ((List.pairwise_append.mp h).2.2 b hb x (List.mem_singleton_self x)).2.le
    · rw [List.mem_singleton.mp hb]
  constructor
  · intro he
    exact ⟨List.mem_of_getLast? he, hlast he⟩
  · rintro ⟨he, hlatest⟩
    obtain ⟨x, hx⟩ : ∃ x, cs.getLast? = some x := by
      rw [← Option.ne_none_iff_exists', Ne, List.getLast?_eq_none_iff]
      exact List.ne_nil_of_mem he
    have hmem := List.mem_of_getLast? hx
    rw [hx, h.stop_injective hmem he (le_antisymm (hlatest x hmem) (hlast hx e he))]

/-- The first definition of a list is the one that starts first. -/
theorem InOrder.head?_eq_some_iff (h : InOrder cs) :
    cs.head? = some e ↔ e ∈ cs ∧ ∀ b ∈ cs, e.start ≤ b.start := by
  have hhead : ∀ {x}, cs.head? = some x → ∀ b ∈ cs, x.start ≤ b.start := by
    intro x hx b hb
    obtain ⟨others, rfl⟩ := List.head?_eq_some_iff.mp hx
    rcases List.mem_cons.mp hb with rfl | hb
    · exact le_rfl
    · exact ((List.pairwise_cons.mp h).1 b hb).1.le
  constructor
  · intro he
    exact ⟨List.mem_of_head? he, hhead he⟩
  · rintro ⟨he, hearliest⟩
    obtain ⟨x, hx⟩ : ∃ x, cs.head? = some x := by
      rw [← Option.ne_none_iff_exists', Ne, List.head?_eq_none_iff]
      exact List.ne_nil_of_mem he
    have hmem := List.mem_of_head? hx
    rw [hx, h.start_injective hmem he (le_antisymm (hhead hx e he) (hearliest x hmem))]

/-- In a list without a definition above a line the first one is picked, and the last one of
those above it in any other list. -/
theorem InOrder.pick?_eq_some_iff (h : InOrder cs) {before : Int} :
    pick? cs before = some e ↔ e ∈ cs ∧
      (((e.stop : Int) < before ∧ ∀ b ∈ cs, (b.stop : Int) < before → b.stop ≤ e.stop) ∨
        ((∀ b ∈ cs, ¬ (b.stop : Int) < before) ∧ ∀ b ∈ cs, e.start ≤ b.start)) := by
  unfold pick?
  split
  · rename_i x hx
    have hlast := (h.filter fun b => (b.stop : Int) < before).getLast?_eq_some_iff (e := e)
    have habove := (List.mem_filter.mp (List.mem_of_getLast? hx))
    simp only [decide_eq_true_eq] at habove
    rw [← hx, hlast]
    simp only [List.mem_filter, decide_eq_true_eq, and_imp]
    constructor
    · rintro ⟨⟨hmem, hstop⟩, hlatest⟩
      exact ⟨hmem, Or.inl ⟨hstop, hlatest⟩⟩
    · rintro ⟨hmem, ⟨hstop, hlatest⟩ | ⟨hnone, -⟩⟩
      · exact ⟨⟨hmem, hstop⟩, hlatest⟩
      · exact absurd habove.2 (hnone x habove.1)
  · rename_i hnil
    have hnone : ∀ b ∈ cs, ¬ (b.stop : Int) < before := by
      intro b hb
      simpa using List.filter_eq_nil_iff.mp (List.getLast?_eq_none_iff.mp hnil) b hb
    rw [h.head?_eq_some_iff]
    constructor
    · rintro ⟨hmem, hearliest⟩
      exact ⟨hmem, Or.inr ⟨hnone, hearliest⟩⟩
    · rintro ⟨hmem, ⟨hstop, -⟩ | ⟨-, hearliest⟩⟩
      · exact absurd hstop (hnone e hmem)
      · exact ⟨hmem, hearliest⟩

theorem mem_candidates_iff {first last : Int} {name : String} :
    e ∈ candidates cs first last name ↔
      e ∈ cs ∧ e.name = name ∧ ((e.stop : Int) < first ∨ last < (e.start : Int)) := by
  simp only [candidates, Definition.overlaps, List.mem_filter, Bool.and_eq_true, beq_iff_eq,
    Bool.not_eq_true', Bool.and_eq_false_iff, decide_eq_false_iff_not, Int.not_le]
  rw [or_comm]

theorem pick?_eq_none_iff {before : Int} : pick? cs before = none ↔ cs = [] := by
  unfold pick?
  split
  · rename_i x hx
    have hmem := (List.mem_filter.mp (List.mem_of_getLast? hx)).1
    simp [List.ne_nil_of_mem hmem]
  · exact List.head?_eq_none_iff

/-- What is picked of the definitions of a name is the nearest one. -/
theorem InOrder.pick?_candidates (h : InOrder cs) {first last : Int} {name : String} :
    pick? (candidates cs first last name) first = some e ↔ Nearest cs first last name e := by
  have hcandidates : InOrder (candidates cs first last name) := h.filter _
  rw [hcandidates.pick?_eq_some_iff]
  simp only [mem_candidates_iff]
  constructor
  · rintro ⟨⟨hmem, hnamed, hplace⟩, ⟨hstop, hlatest⟩ | ⟨hnone, hearliest⟩⟩
    · exact .above hmem hnamed hstop fun b hb hname hb' =>
        hlatest b ⟨hb, hname, Or.inl hb'⟩ hb'
    · have hnone' : ∀ b ∈ cs, b.name = name → ¬ (b.stop : Int) < first := fun b hb hname hb' =>
        hnone b ⟨hb, hname, Or.inl hb'⟩ hb'
      exact .below hmem hnamed (hplace.resolve_left (hnone' e hmem hnamed)) hnone'
        fun b hb hname hb' => hearliest b ⟨hb, hname, Or.inr hb'⟩
  · rintro (⟨hmem, hnamed, hstop, hlatest⟩ | ⟨hmem, hnamed, hstart, hnone, hearliest⟩)
    · exact ⟨⟨hmem, hnamed, Or.inl hstop⟩,
        Or.inl ⟨hstop, fun b hb hb' => hlatest b hb.1 hb.2.1 hb'⟩⟩
    · refine ⟨⟨hmem, hnamed, Or.inr hstart⟩, Or.inr ⟨fun b hb => hnone b hb.1 hb.2.1, ?_⟩⟩
      rintro b ⟨hb, hname, hplace⟩
      exact hearliest b hb hname (hplace.resolve_left (hnone b hb hname))

end Order

/-- A definition is told from the others of its file by its first line and its text. -/
theorem eq_of_text {file : SourceFile} (hlines : ∀ line ∈ file.lines, Text.Unbroken line.toList)
    {a b : Definition} (ha : a ∈ file.definitions) (hb : b ∈ file.definitions)
    (hstart : a.start = b.start) (htext : a.text = b.text) : a = b := by
  have hcut : ∀ e ∈ file.definitions, Text.splitAt '\n' e.text =
      (file.lines.take e.stop).drop (e.start - 1) ∧
        ((file.lines.take e.stop).drop (e.start - 1)).length = e.stop - (e.start - 1) := by
    intro e he
    obtain ⟨hpos, hordered, hinside, hown⟩ := lines_of_mem he
    have hlength : ((file.lines.take e.stop).drop (e.start - 1)).length =
        e.stop - (e.start - 1) := by
      rw [List.length_drop, List.length_take]
      exact congrArg (· - (e.start - 1)) (Nat.min_eq_left hinside)
    have hne : (file.lines.take e.stop).drop (e.start - 1) ≠ [] := by
      rw [← List.length_pos_iff, hlength]
      omega
    refine ⟨?_, hlength⟩
    rw [hown, Text.splitAt_joinLines hne]
    intro line hline
    exact (hlines line (List.mem_of_mem_take (List.mem_of_mem_drop hline))).no_feed
  have hstop : a.stop = b.stop := by
    obtain ⟨hcutA, hlengthA⟩ := hcut a ha
    obtain ⟨hcutB, hlengthB⟩ := hcut b hb
    have hboundA := lines_of_mem ha
    have hboundB := lines_of_mem hb
    rw [← hcutA, htext, hcutB, hlengthB] at hlengthA
    omega
  exact eq_of_ascending ((definitions_apart file).imp fun hab => hab.stop_lt) ha hb hstop

/-- No line that defines a name in a built-in language starts with an at sign. -/
theorem marksApart_of_patterns {d b : Descriptor} (hb : b ∈ Language.builtIn)
    (hpatterns : d.definitionPatterns = b.definitionPatterns) : MarksApart d := by
  intro _ line hmark
  have hsame : d.definedName? line = b.definedName? line := by
    simp only [Descriptor.definedName?, hpatterns]
  rw [hsame, Option.eq_none_iff_forall_ne_some]
  intro name hname
  obtain ⟨c, rest, hline, hc⟩ := Language.definedName?_latin hb hname
  obtain rfl : c = '@' := by simpa [isDecorator, hline] using hmark
  revert hc
  decide

/-- Where no decorator defines a name, no definition starts above an earlier one. -/
theorem definitions_inOrder {file : SourceFile} (hd : MarksApart file.descriptor) :
    InOrder file.definitions := by
  refine (definitions_apart file).imp_of_mem ?_
  intro a b ha _ hab
  exact ⟨hab.start_lt_of_marksApart hd ha, hab.stop_lt⟩

/-- The definitions of a name that can be picked are those above a range and those below it. One
is picked unless there are none, and it is the nearest one. -/
theorem pick?_nearest {file : SourceFile} (hd : file.descriptor ∈ Language.builtIn)
    (first last : Int) (name : String) :
    (∀ e, e ∈ candidates file.definitions first last name ↔
      e ∈ file.definitions ∧ e.name = name ∧ ((e.stop : Int) < first ∨ last < (e.start : Int))) ∧
    (pick? (candidates file.definitions first last name) first = none ↔
      candidates file.definitions first last name = []) ∧
    ∀ e, pick? (candidates file.definitions first last name) first = some e ↔
      Nearest file.definitions first last name e :=
  ⟨fun _ => mem_candidates_iff, pick?_eq_none_iff, fun _ =>
    (definitions_inOrder (marksApart_of_patterns hd rfl)).pick?_candidates⟩

section TwoVersions

private def twoVersions : SourceFile :=
  ⟨⟨.root, ["a.py"]⟩, Language.python,
    ["def f():", "    return 1", "f()", "@cache", "def f():", "    return 2"]⟩

private theorem definitions_twoVersions : twoVersions.definitions =
    [⟨"f", 1, 2, "def f():\n    return 1"⟩, ⟨"f", 4, 6, "@cache\ndef f():\n    return 2"⟩] := by
  have hhead : Language.python.isImport "def f():" = false ∧
      Language.python.definedName? "def f():" = some "f" := by decide
  have hothers : ∀ line ∈ ["f()", "@cache"], Language.python.isImport line = false ∧
      Language.python.definedName? line = none := by decide
  have hfirst : blockLength Language.python twoVersions.lines = 2 := by decide +kernel
  have hsecond : blockLength Language.python ["def f():", "    return 2"] = 2 := by
    decide +kernel
  simp only [twoVersions] at hfirst
  simp [SourceFile.definitions, twoVersions, definitionsFrom, hhead, hothers, hfirst, hsecond]
  decide

/-- The call takes the function above it; with that one selected too, the one below, which begins
at its decorator. -/
theorem pick?_nearest_twoVersions :
    Language.python ∈ Language.builtIn ∧
      Nearest twoVersions.definitions 3 3 "f" ⟨"f", 1, 2, "def f():\n    return 1"⟩ ∧
      Nearest twoVersions.definitions 1 3 "f" ⟨"f", 4, 6, "@cache\ndef f():\n    return 2"⟩ := by
  have hd : twoVersions.descriptor ∈ Language.builtIn := by decide
  refine ⟨hd, ((pick?_nearest hd 3 3 "f").2.2 _).mp ?_, ((pick?_nearest hd 1 3 "f").2.2 _).mp ?_⟩
  all_goals
    rw [definitions_twoVersions]
    decide

end TwoVersions

end SnippetRunner.Source
