import SnippetRunner.Proofs.Source.Layout
import SnippetRunner.Source.Import

/-!
Decorators and the definition below them. A decorator is a statement, which brackets may carry
over several lines, while a definition takes the lines right above its head that start with an at
sign. So the decorators of a definition are all part of it just if each of their lines starts with
an at sign; otherwise those down to the last other line are lost.
-/
namespace SnippetRunner.Source

open Text

/-- Statements one below the other that start with an at sign. Each is as long as its brackets and
continuation marks make it, and the last one ends where the lines `below` begin. -/
inductive DecoratorStack (style : BlockStyle) (below : List String) : List (List String) → Prop
  | nil : DecoratorStack style below []
  | cons {mark : String} {more : List String} {statements : List (List String)}
      (hmark : isDecorator mark = true)
      (hlength : statementLength style 0 (mark :: more ++ (statements.flatten ++ below)) =
        (mark :: more).length)
      (hrest : DecoratorStack style below statements) :
      DecoratorStack style below ((mark :: more) :: statements)

/-- The definition takes along the lines `stack`, which stand between the lines `upper` and its
head: it starts in the first of them, or above it at a line that starts with an at sign too. -/
structure Carries (e : Definition) (upper stack block : List String) : Prop where
  start : e.start ≤ upper.length + 1
  text : ∃ marks, marks <:+ upper ∧ (∀ mark ∈ marks, isDecorator mark = true) ∧
    e.start + marks.length = upper.length + 1 ∧ e.text = joinLines (marks ++ stack ++ block)

section Stacks

variable {style : BlockStyle} {below : List String} {statements : List (List String)}

/-- The first line of each statement starts with an at sign anyway. -/
theorem DecoratorStack.all_marks_iff (h : DecoratorStack style below statements) :
    (∀ line ∈ statements.flatten, isDecorator line = true) ↔
      ∀ statement ∈ statements, ∀ line ∈ statement.tail, isDecorator line = true := by
  induction h with
  | nil => simp
  | @cons mark more statements hmark hlength hrest ih =>
    rw [List.flatten_cons, List.forall_mem_append, List.forall_mem_cons, List.forall_mem_cons, ih,
      List.tail_cons]
    constructor
    · rintro ⟨⟨-, hmore⟩, hothers⟩
      exact ⟨hmore, hothers⟩
    · rintro ⟨hmore, hothers⟩
      exact ⟨⟨hmark, hmore⟩, hothers⟩

theorem DecoratorStack.flatten_ne_nil (h : DecoratorStack style below statements)
    (hne : statements ≠ []) : statements.flatten ≠ [] := by
  cases h with
  | nil => exact absurd rfl hne
  | cons hmark hlength hrest => simp

end Stacks

section Heads

variable {d : Descriptor} {upper stack below : List String} {head : String} {e : Definition}

theorem Headed.carries (h : Headed d (upper ++ stack) head below e)
    (hstyle : d.blockStyle = .indent) (hall : ∀ line ∈ stack, isDecorator line = true) :
    Carries e upper stack ((head :: below).take (blockLength d (head :: below))) := by
  have hmarks : decorators d (upper ++ stack).reverse =
      stack.reverse ++ decorators d upper.reverse := by
    rw [decorators_of_indent hstyle, decorators_of_indent hstyle, List.reverse_append]
    exact List.takeWhile_append_of_pos fun line hline => hall line (List.mem_reverse.mp hline)
  have hstart := h.start
  rw [hmarks] at hstart
  simp only [List.length_append, List.length_reverse] at hstart
  refine ⟨by omega, (decorators d upper.reverse).reverse, ?_, ?_, ?_, ?_⟩
  · rw [← List.reverse_prefix, List.reverse_reverse, decorators_of_indent hstyle]
    exact List.takeWhile_prefix _
  · intro mark hmark
    exact (mem_decorators (List.mem_reverse.mp hmark)).2
  · rw [List.length_reverse]
    omega
  · rw [h.text, hmarks, List.reverse_append, List.reverse_reverse]

/-- A definition starts right below the last line above its head that starts otherwise. -/
theorem Headed.start_below {line : String} {kept : List String}
    (h : Headed d (upper ++ line :: kept) head below e) (hstyle : d.blockStyle = .indent)
    (hline : isDecorator line = false) (hkept : ∀ mark ∈ kept, isDecorator mark = true) :
    e.start = upper.length + 2 := by
  have hmarks : (decorators d (upper ++ line :: kept).reverse).length = kept.length := by
    rw [decorators_of_indent hstyle, List.reverse_append, List.reverse_cons, List.append_assoc,
      List.takeWhile_append_of_pos fun mark hmark => hkept mark (List.mem_reverse.mp hmark)]
    simp [hline]
  have hstart := h.start
  rw [hmarks, List.length_append, List.length_cons] at hstart
  omega

end Heads

/-- The decorators above a definition are part of it just if all the lines over which they
continue start with an at sign, as is the case if each takes one line. If one of them starts
otherwise, the definition starts right below the last such line. -/
theorem decorators_carried_iff {file : SourceFile} (hstyle : file.descriptor.blockStyle = .indent)
    {e : Definition} (he : e ∈ file.definitions) :
    ∃ above head below, file.lines = above ++ head :: below ∧
      Headed file.descriptor above head below e ∧
      ∀ upper statements, above = upper ++ statements.flatten → statements ≠ [] →
        DecoratorStack file.descriptor.blockStyle (head :: below) statements →
          (Carries e upper statements.flatten
              ((head :: below).take (blockLength file.descriptor (head :: below))) ↔
            ∀ statement ∈ statements, ∀ line ∈ statement.tail, isDecorator line = true) ∧
          ∀ lost line kept, statements.flatten = lost ++ line :: kept →
            isDecorator line = false → (∀ mark ∈ kept, isDecorator mark = true) →
            e.start = upper.length + lost.length + 2 := by
  obtain ⟨above, head, below, hlines, hheaded⟩ := headed_of_mem he
  refine ⟨above, head, below, hlines, hheaded, ?_⟩
  rintro upper statements rfl hne hstack
  refine ⟨?_, ?_⟩
  · rw [← hstack.all_marks_iff]
    constructor
    · intro hcarries
      exact ((hheaded.reaches_iff (hstack.flatten_ne_nil hne)).mp hcarries.start).2
    · intro hall
      exact hheaded.carries hstyle hall
  · intro lost line kept hflatten hline hkept
    rw [hflatten, ← List.append_assoc] at hheaded
    rw [hheaded.start_below hstyle hline hkept, List.length_append]

section LongDecorator

private def cachedFile : SourceFile :=
  ⟨⟨.root, ["a.py"]⟩, Language.python,
    ["@cache(", "    size=1", ")", "def f(x):", "    return x"]⟩

private theorem definitions_cachedFile :
    cachedFile.definitions = [⟨"f", 4, 5, "def f(x):\n    return x"⟩] := by
  have hheads : Language.python.isImport "def f(x):" = false ∧
      Language.python.definedName? "def f(x):" = some "f" := by decide
  have hothers : ∀ line ∈ ["@cache(", "    size=1", ")"],
      Language.python.definedName? line = none := by decide
  have hfunction : blockLength Language.python ["def f(x):", "    return x"] = 2 := by
    decide +kernel
  simp [SourceFile.definitions, cachedFile, definitionsFrom, hheads, hothers, hfunction]
  decide

private theorem stack_cachedFile : DecoratorStack .indent ["def f(x):", "    return x"]
    [["@cache(", "    size=1", ")"]] :=
  .cons (by decide) (by decide +kernel) .nil

/-- The function is found without its decorator. -/
theorem decorators_carried_iff_cachedFile :
    ∃ e ∈ cachedFile.definitions, ∃ above head below, cachedFile.lines = above ++ head :: below ∧
      Headed Language.python above head below e ∧
      DecoratorStack .indent (head :: below) [above] ∧
      ¬ Carries e [] above
        ((head :: below).take (blockLength Language.python (head :: below))) := by
  have he : ⟨"f", 4, 5, "def f(x):\n    return x"⟩ ∈ cachedFile.definitions := by
    rw [definitions_cachedFile]
    exact List.mem_singleton_self _
  obtain ⟨above, head, below, hlines, hheaded, hcarried⟩ :=
    decorators_carried_iff rfl he
  have hothers : ∀ line ∈ ["@cache(", "    size=1", ")", "    return x"],
      Language.python.definedName? line = none := by decide
  have hhead : head ∉ ["@cache(", "    size=1", ")", "    return x"] := by
    intro hmem
    have hname := hheaded.name
    rw [show cachedFile.descriptor = Language.python from rfl, hothers head hmem] at hname
    cases hname
  obtain ⟨rfl, rfl, rfl⟩ : above = ["@cache(", "    size=1", ")"] ∧ head = "def f(x):" ∧
      below = ["    return x"] := by
    simp only [cachedFile] at hlines
    rcases above with _ | ⟨_, _ | ⟨_, _ | ⟨_, _ | ⟨_, _ | ⟨_, above⟩⟩⟩⟩⟩ <;>
      simp_all
  refine ⟨_, he, _, _, _, hlines, hheaded, stack_cachedFile, ?_⟩
  intro hcarries
  have hiff := (hcarried [] [["@cache(", "    size=1", ")"]] rfl (by simp) stack_cachedFile).1
  exact absurd (hiff.mp hcarries) (by decide)

end LongDecorator

end SnippetRunner.Source
