import SnippetRunner.Proofs.Rounds
import SnippetRunner.Proofs.Source.Positions

/-!
Searches by position. The import statements and the definitions of a file are searched for from the
top down, round by round: a round looks at one line and goes on below it, or below the statement or
the block that begins there. On every text, also where a bracket is never closed, each round goes
further down and reads nothing that is not there; so the search is over within as many rounds as
there are lines, and what it has found are the statements and the definitions of the file.
-/
namespace SnippetRunner.Source

open Text

structure Search (α : Type) where
  cursor : Nat
  found : List α

def importRound (file : SourceFile) (first last : Int) (s : Search Statement) :
    Option (Round (Search Statement) (List Statement)) :=
  if s.cursor < file.lines.length then do
    let line ← file.lines[s.cursor]?
    let number := s.cursor + 1
    if endsRegion file.descriptor first number line then some (.over s.found)
    else if file.descriptor.isImport line then
      let stop ← statementEnd? file.descriptor.blockStyle file.lines s.cursor
      let statement : Statement := ⟨number, (file.lines.take (stop + 1)).drop s.cursor⟩
      let selected := first ≤ (number : Int) && (number : Int) ≤ last
      some (.on ⟨stop + 1, if selected then s.found else s.found ++ [statement]⟩)
    else some (.on ⟨s.cursor + 1, s.found⟩)
  else some (.over s.found)

def definitionRound (file : SourceFile) (s : Search Definition) :
    Option (Round (Search Definition) (List Definition)) :=
  if s.cursor < file.lines.length then do
    let line ← file.lines[s.cursor]?
    match file.descriptor.isImport line, file.descriptor.definedName? line with
    | false, some name =>
      let start ← firstLine? file.descriptor file.lines s.cursor
      let stop ← lastLine? file.descriptor file.lines s.cursor
      let text := joinLines ((file.lines.take (stop + 1)).drop start)
      some (.on ⟨stop + 1, s.found ++ [⟨name, start + 1, stop + 1, text⟩]⟩)
    | _, _ => some (.on ⟨s.cursor + 1, s.found⟩)
  else some (.over s.found)

section Rounds

variable {file : SourceFile} {first last : Int} {above below : List String} {line : String}

/-- The definitions that a search comes to when it goes on as the file is read. -/
def Search.definitions (file : SourceFile) (s : Search Definition) : List Definition :=
  s.found ++ definitionsFrom file.descriptor (file.lines.take s.cursor).reverse (s.cursor + 1)
    (file.lines.drop s.cursor)

/-- The statements that a search comes to when it goes on as the file is read. -/
def Search.statements (file : SourceFile) (first last : Int) (s : Search Statement) :
    List Statement :=
  s.found ++ (statementsFrom file.descriptor first (s.cursor + 1)
    (file.lines.drop s.cursor)).filter fun t => !(first ≤ (t.start : Int) && (t.start : Int) ≤ last)

/-- A round ends the search or goes on further down, but not past the last line; what the search
comes to stays the same. -/
def Forward {α : Type} (count : Nat) (round : Search α → Option (Round (Search α) (List α)))
    (result : Search α → List α) (s : Search α) : Prop :=
  round s = some (.over (result s)) ∨
    ∃ t, round s = some (.on t) ∧ s.cursor < t.cursor ∧ t.cursor ≤ count ∧ result t = result s

/-- A round that goes forward at each line, and ends the search below the last one, goes forward
everywhere. -/
theorem forward_of_lines {α : Type} {lines : List String}
    {round : Search α → Option (Round (Search α) (List α))} {result : Search α → List α}
    (hline : ∀ above line below found, lines = above ++ line :: below →
      Forward lines.length round result ⟨above.length, found⟩)
    (hend : ∀ s : Search α, lines.length ≤ s.cursor → round s = some (.over (result s)))
    (s : Search α) : Forward lines.length round result s := by
  by_cases hinside : s.cursor < lines.length
  · obtain ⟨above, below, hlines, habove, -⟩ := exists_split hinside
    obtain ⟨cursor, found⟩ := s
    subst habove
    exact hline above _ below found hlines
  · exact Or.inl (hend s (Nat.le_of_not_lt hinside))

theorem Search.definitions_at (hlines : file.lines = above ++ below) (found : List Definition) :
    Search.definitions file ⟨above.length, found⟩ =
      found ++ definitionsFrom file.descriptor above.reverse (above.length + 1) below := by
  rw [Search.definitions, hlines, List.take_left' rfl, List.drop_left' rfl]

/-- At a head a definition is found, and the search goes on below its last line. -/
theorem definitionsFrom_head {d : Descriptor} (above below : List String) {name : String}
    (himport : d.isImport line = false) (hname : d.definedName? line = some name) :
    ∃ e, Headed d above line below e ∧
      definitionsFrom d above.reverse (above.length + 1) (line :: below) =
        e :: definitionsFrom d (((line :: below).take (blockLength d (line :: below))).reverse ++
          above.reverse) (e.stop + 1) ((line :: below).drop (blockLength d (line :: below))) := by
  have hmarks := length_decorators_le (d := d) above.reverse
  rw [List.length_reverse] at hmarks
  let e : Definition := ⟨name, above.length + 1 - (decorators d above.reverse).length,
    above.length + 1 + blockLength d (line :: below) - 1,
    joinLines ((decorators d above.reverse).reverse ++
      (line :: below).take (blockLength d (line :: below)))⟩
  have hnext : e.stop + 1 = above.length + 1 + blockLength d (line :: below) := by
    dsimp only [e]
    omega
  refine ⟨e, ⟨himport, hname, ?_, ?_, rfl⟩, ?_⟩
  · dsimp only [e]
    omega
  · dsimp only [e]
    omega
  · rw [hnext, definitionsFrom, himport, hname]

theorem definitionsFrom_other {d : Descriptor} {number : Nat}
    (h : d.isImport line = true ∨ d.definedName? line = none) :
    definitionsFrom d above number (line :: below) =
      definitionsFrom d (line :: above) (number + 1) below := by
  rw [definitionsFrom]
  rcases h with h | h <;> simp [h]

theorem Headed.definitionRound_eq {e : Definition}
    (h : Headed file.descriptor above line below e) (hlines : file.lines = above ++ line :: below)
    (found : List Definition) :
    definitionRound file ⟨above.length, found⟩ = some (.on ⟨e.stop, found ++ [e]⟩) := by
  obtain ⟨stop, hstop, -, -, hsize⟩ := lastLine?_inside file.descriptor above below line
  have hinside : above.length < file.lines.length := by rw [hlines]; simp
  have hmarks := length_decorators_le (d := file.descriptor) above.reverse
  rw [List.length_reverse] at hmarks
  have hlast : stop + 1 = e.stop := by rw [hsize, h.stop]
  have hfirst : above.length - (decorators file.descriptor above.reverse).length + 1 = e.start := by
    have hstart := h.start
    omega
  have htext := h.text_eq
  rw [← hlines, ← hlast, ← hfirst, Nat.add_sub_cancel] at htext
  rw [definitionRound, if_pos hinside]
  simp only [hlines, read_head, Option.bind_eq_bind, Option.bind_some, h.proper, h.name,
    firstLine?_eq, hstop]
  rw [← hlines, ← htext, hfirst, hlast]

theorem definitionRound_other
    (h : file.descriptor.isImport line = true ∨ file.descriptor.definedName? line = none)
    (hlines : file.lines = above ++ line :: below) (found : List Definition) :
    definitionRound file ⟨above.length, found⟩ = some (.on ⟨above.length + 1, found⟩) := by
  have hinside : above.length < file.lines.length := by rw [hlines]; simp
  rw [definitionRound, if_pos hinside]
  simp only [hlines, read_head, Option.bind_eq_bind, Option.bind_some]
  rcases h with h | h <;> simp [h]

/-- A round at a line that is there goes on below it, to the same definitions. -/
theorem definitionRound_at (hlines : file.lines = above ++ line :: below)
    (found : List Definition) :
    Forward file.lines.length (definitionRound file) (Search.definitions file)
      ⟨above.length, found⟩ := by
  right
  rw [Search.definitions_at hlines]
  by_cases hhead : file.descriptor.isImport line = true ∨ file.descriptor.definedName? line = none
  · have hnext : file.lines = (above ++ [line]) ++ below := by simpa using hlines
    have hgoes := Search.definitions_at hnext found
    rw [List.length_append, List.length_singleton] at hgoes
    refine ⟨_, definitionRound_other hhead hlines found, Nat.lt_succ_self _, ?_, ?_⟩
    · rw [hlines]
      simp
    · rw [hgoes, definitionsFrom_other hhead, List.reverse_append]
      rfl
  · obtain ⟨himport, hname⟩ := not_or.mp hhead
    obtain ⟨name, hname⟩ := Option.ne_none_iff_exists'.mp hname
    obtain ⟨e, hheaded, hfrom⟩ :=
      definitionsFrom_head above below (by simpa using himport) hname
    generalize hsize : blockLength file.descriptor (line :: below) = size at hfrom
    have hblock : (above ++ (line :: below).take size).length = e.stop := by
      rw [hheaded.stop, ← hsize, List.length_append, length_take_blockLength]
    have hnext : file.lines =
        (above ++ (line :: below).take size) ++ (line :: below).drop size := by
      rw [List.append_assoc, List.take_append_drop, hlines]
    have hgoes := Search.definitions_at hnext (found ++ [e])
    rw [hblock] at hgoes
    refine ⟨_, hheaded.definitionRound_eq hlines found, hheaded.lt_stop, ?_, ?_⟩
    · rw [hlines]
      exact hheaded.stop_le
    · rw [hgoes, hfrom, List.reverse_append, List.append_assoc, List.singleton_append]

theorem definitionRound_forward (file : SourceFile) (s : Search Definition) :
    Forward file.lines.length (definitionRound file) (Search.definitions file) s := by
  refine forward_of_lines (fun _ _ _ found hlines => definitionRound_at hlines found) ?_ s
  intro s hend
  rw [definitionRound, if_neg (Nat.not_lt.mpr hend), Search.definitions,
    List.drop_eq_nil_of_le hend]
  simp [definitionsFrom]

theorem Search.statements_at (first last : Int) (hlines : file.lines = above ++ below)
    (found : List Statement) :
    Search.statements file first last ⟨above.length, found⟩ =
      found ++ (statementsFrom file.descriptor first (above.length + 1) below).filter fun t =>
        !(first ≤ (t.start : Int) && (t.start : Int) ≤ last) := by
  rw [Search.statements, hlines, List.drop_left' rfl]

/-- At an import statement the search goes on below its last line. -/
theorem importRound_import
    (hends : endsRegion file.descriptor first (above.length + 1) line = false)
    (himport : file.descriptor.isImport line = true)
    (hlines : file.lines = above ++ line :: below) (found : List Statement) :
    Forward file.lines.length (importRound file first last) (Search.statements file first last)
      ⟨above.length, found⟩ := by
  right
  have hinside : above.length < file.lines.length := by rw [hlines]; simp
  obtain ⟨stop, hstop, hle, hless, hsize⟩ :=
    statementEnd?_inside file.descriptor.blockStyle above below line
  rw [Search.statements_at first last hlines, statementsFrom_import hends himport, importRound,
    if_pos hinside]
  simp only [hlines, read_head, Option.bind_eq_bind, Option.bind_some]
  rw [hends, if_neg Bool.false_ne_true, if_pos himport, hstop]
  generalize statementLength file.descriptor.blockStyle 0 (line :: below) = size at hsize ⊢
  have htaken : ((above ++ line :: below).take (stop + 1)).drop above.length =
      (line :: below).take size := by
    rw [hsize, List.take_length_add_append, List.drop_left]
  have hlength : (above ++ (line :: below).take size).length = stop + 1 := by
    rw [List.length_append] at hless
    rw [List.length_append, List.length_take]
    omega
  have hnext : file.lines =
      (above ++ (line :: below).take size) ++ (line :: below).drop size := by
    rw [List.append_assoc, List.take_append_drop, hlines]
  have hgoes := Search.statements_at first last hnext
  rw [hlength] at hgoes
  simp only [Option.bind_some, htaken]
  refine ⟨_, rfl, Nat.lt_succ_of_le hle, hless, ?_⟩
  rw [hgoes, hsize, Nat.add_right_comm, List.filter_cons]
  cases first ≤ ((above.length + 1 : Nat) : Int) && ((above.length + 1 : Nat) : Int) ≤ last with
  | true => simp
  | false => simp

/-- A round at a line that is there goes on below it, to the same statements, or ends the search. -/
theorem importRound_at (hlines : file.lines = above ++ line :: below) (found : List Statement) :
    Forward file.lines.length (importRound file first last) (Search.statements file first last)
      ⟨above.length, found⟩ := by
  have hinside : above.length < file.lines.length := by rw [hlines]; simp
  by_cases hends : endsRegion file.descriptor first (above.length + 1) line = true
  · left
    rw [Search.statements_at first last hlines, importRound, if_pos hinside, statementsFrom,
      if_pos hends]
    simp [hlines, hends]
  · by_cases himport : file.descriptor.isImport line = true
    · exact importRound_import (by simpa using hends) himport hlines found
    · right
      have hnext : file.lines = (above ++ [line]) ++ below := by simpa using hlines
      have hgoes := Search.statements_at first last hnext found
      rw [List.length_append, List.length_singleton] at hgoes
      rw [Search.statements_at first last hlines, importRound, if_pos hinside, statementsFrom,
        if_neg hends, if_neg himport]
      refine ⟨⟨above.length + 1, found⟩, ?_, Nat.lt_succ_self _, hinside, hgoes⟩
      simp [hlines, hends, himport]

theorem importRound_forward (file : SourceFile) (first last : Int) (s : Search Statement) :
    Forward file.lines.length (importRound file first last) (Search.statements file first last)
      s := by
  refine forward_of_lines (fun _ _ _ found hlines => importRound_at hlines found) ?_ s
  intro s hend
  rw [importRound, if_neg (Nat.not_lt.mpr hend), Search.statements, List.drop_eq_nil_of_le hend]
  simp [statementsFrom]

/-- Each round of a search that does not end it goes on below the line it has come to, and from the
top the search is over within as many rounds as there are lines, with the items. -/
def RunsDown {α : Type} (count : Nat) (round : Search α → Option (Round (Search α) (List α)))
    (items : List α) : Prop :=
  (∀ s t, round s = some (.on t) → s.cursor < t.cursor ∧ t.cursor ≤ count) ∧
    ∃ n ≤ count, OverAfter round n ⟨0, []⟩ items

theorem RunsDown.of_forward {α : Type} {count : Nat}
    {round : Search α → Option (Round (Search α) (List α))} {result : Search α → List α}
    (h : ∀ s, Forward count round result s) : RunsDown count round (result ⟨0, []⟩) := by
  constructor
  · intro s t hround
    rcases h s with hover | ⟨t', hon, hless, hle, -⟩
    · rw [hover] at hround
      cases hround
    · rw [hon] at hround
      cases hround
      exact ⟨hless, hle⟩
  · refine OverAfter.of_progress (fun s => count - s.cursor) result (fun s => ?_) ⟨0, []⟩
    refine (h s).imp_right ?_
    rintro ⟨t, hon, hless, hle, hresult⟩
    exact ⟨t, hon, by omega, hresult⟩

end Rounds

/-- Scans by position read only lines that are there, and the first character only of lines that
have one. From each line of a file on, the scans for the end of a statement, of an indented block
and of a block in braces end at a line that is there, not above the first one, as the lengths of
the statement and of the blocks say. So the searches for import statements and for definitions
advance with every round, are over within as many rounds as there are lines, and find the statements
and the definitions of the file; each definition takes lines that are there and has their text. -/
theorem scans_end_inside (file : SourceFile) :
    (∀ (i : Nat) (hi : i < file.lines.length),
      EndsInside (statementEnd? file.descriptor.blockStyle file.lines i) file.lines.length i
          (statementLength file.descriptor.blockStyle 0 (file.lines.drop i)) ∧
        EndsInside (indentEnd? file.lines i) file.lines.length i
          (1 + indentExtent (plainDepth .indent file.lines[i]) (file.lines.drop (i + 1))) ∧
        EndsInside (braceEnd? file.descriptor file.lines i) file.lines.length i
          (braceExtent file.descriptor true false 0 (file.lines.drop i))) ∧
    (∀ first last, RunsDown file.lines.length (importRound file first last)
      (file.imports first last)) ∧
    RunsDown file.lines.length (definitionRound file) file.definitions ∧
    ∀ e ∈ file.definitions, 1 ≤ e.start ∧ e.start ≤ e.stop ∧ e.stop ≤ file.lines.length ∧
      e.text = joinLines ((file.lines.take e.stop).drop (e.start - 1)) := by
  refine ⟨?_, ?_, ?_, ?_⟩
  · intro i hi
    obtain ⟨above, below, hlines, habove, hbelow⟩ := exists_split hi
    have hdrop : file.lines.drop i = file.lines[i] :: below := by
      rw [hbelow]
      exact List.drop_eq_getElem_cons hi
    rw [hdrop, ← hbelow]
    generalize file.lines[i] = head at hlines
    rw [hlines, ← habove]
    exact ⟨statementEnd?_inside file.descriptor.blockStyle above below head,
      indentEnd?_inside above below head, braceEnd?_inside file.descriptor above below head⟩
  · intro first last
    have hruns := RunsDown.of_forward (importRound_forward file first last)
    rwa [Search.statements, List.nil_append, List.drop_zero, ← imports_eq_filter] at hruns
  · exact RunsDown.of_forward (definitionRound_forward file)
  · intro e he
    exact lines_of_mem he

end SnippetRunner.Source
