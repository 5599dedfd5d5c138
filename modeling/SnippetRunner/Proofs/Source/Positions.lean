import Mathlib.Data.List.Induction
import Mathlib.Data.Nat.PSub
import SnippetRunner.Proofs.Source.Layout
import SnippetRunner.Proofs.Source.Statements

/-!
Scans by position. Such a scan goes from line to line by number and gives nothing when it reads a
line below the last one or above the first one, or the first character of an empty line. It never
does: on every text it ends at a line that is there, not above the one where it began, and the lines
up to that one are those of the statement or of the block.
-/
namespace SnippetRunner.Source

open Text

/-- Goes down from line `j` to the last line of a statement, when brackets are open to the given
depth. -/
def statementEndFrom (style : BlockStyle) (lines : List String) (depth : Int) (j : Nat) :
    Option Nat :=
  if j < lines.length then do
    let line ← lines[j]?
    let plain := plainChars style line.toList
    let depth := depth + depthChange plain
    if depth ≤ 0 && !isContinued plain then some j
    else statementEndFrom style lines depth (j + 1)
  else lines.length.ppred
  termination_by lines.length - j

/-- The last line of the statement that begins at line `i`. -/
def statementEnd? (style : BlockStyle) (lines : List String) (i : Nat) : Option Nat :=
  statementEndFrom style lines 0 i

/-- The line, which is not blank, ends an indented block. Its first character is read unless a
bracket is open. -/
def endsIndented? (depth : Int) (line : String) : Option Bool :=
  if depth ≤ 0 then line.toList.head?.map fun c => !isBlank c && !closesBracket c
  else some false

def indentEndFrom (lines : List String) (depth : Int) (last j : Nat) : Option Nat :=
  if j < lines.length then do
    let line ← lines[j]?
    if isBlankLine line.toList then indentEndFrom lines depth last (j + 1)
    else if ← endsIndented? depth line then some last
    else indentEndFrom lines (depth + plainDepth .indent line) j (j + 1)
  else some last
  termination_by lines.length - j

/-- The last line of the indented block whose head is line `i`. -/
def indentEnd? (lines : List String) (i : Nat) : Option Nat := do
  let head ← lines[i]?
  indentEndFrom lines (plainDepth .indent head) i (i + 1)

/-- The line ends a definition of which no brace was seen above: it holds no code, or it defines
something itself. Its first character is read if it holds code. -/
def endsUnopened? (d : Descriptor) (unopened : Bool) (line : String) : Option Bool :=
  if !unopened then some false
  else if isBlankLine (plainChars .braces line.toList) then some true
  else line.toList.head?.map fun c => !isBlank c && d.definesName line

/-- Goes down from line `j` to the end of the braces of the definition whose head is line `i`. -/
def braceEndFrom (d : Descriptor) (lines : List String) (i : Nat) (opened : Bool) (depth : Int)
    (j : Nat) : Option Nat :=
  if j < lines.length then do
    let line ← lines[j]?
    let plain := plainChars .braces line.toList
    if ← endsUnopened? d (!opened && i < j) line then j.ppred
    else
      let depth := depth + braceChange plain
      let opened := opened || plain.contains openBrace
      if opened && depth ≤ 0 then some j
      else if !opened && endsWithSemicolon plain then some j
      else braceEndFrom d lines i opened depth (j + 1)
  else lines.length.ppred
  termination_by lines.length - j

/-- The last line of the definition in braces whose head is line `i`. -/
def braceEnd? (d : Descriptor) (lines : List String) (i : Nat) : Option Nat :=
  braceEndFrom d lines i false 0 i

def decoratedFrom (lines : List String) : Nat → Option Nat
  | 0 => some 0
  | n + 1 => do
    let line ← lines[n]?
    if isDecorator line then decoratedFrom lines n else some (n + 1)

def firstLine? (d : Descriptor) (lines : List String) (i : Nat) : Option Nat :=
  match d.blockStyle with
  | .indent => decoratedFrom lines i
  | .braces => some i

/-- The last line of the definition whose head is line `i`. -/
def lastLine? (d : Descriptor) (lines : List String) (i : Nat) : Option Nat :=
  match d.blockStyle with
  | .indent => indentEnd? lines i
  | .braces => braceEnd? d lines i

section Ends

variable {d : Descriptor} {style : BlockStyle}

theorem read_head (above rest : List String) (line : String) :
    (above ++ line :: rest)[above.length]? = some line := by
  simp

theorem statementEndFrom_eq (above rest : List String) (depth : Int) :
    statementEndFrom style (above ++ rest) depth above.length =
      (above.length + statementLength style depth rest).ppred := by
  induction rest generalizing above depth with
  | nil =>
    rw [statementEndFrom, if_neg (by simp)]
    simp [statementLength]
  | cons line rest ih =>
    have hbelow := ih (above ++ [line]) (depth + plainDepth style line)
    rw [List.append_assoc, List.singleton_append, List.length_append, List.length_singleton]
      at hbelow
    rw [statementEndFrom, if_pos (by simp), read_head, statementLength_cons]
    simp only [Option.bind_eq_bind, Option.bind_some]
    change (if (depth + plainDepth style line ≤ 0 && _) = true then _ else
      statementEndFrom style _ (depth + plainDepth style line) _) = _
    split
    · rfl
    · rw [hbelow, Nat.add_assoc]

theorem endsIndented?_eq {line : String} (depth : Int) (h : isBlankLine line.toList = false) :
    endsIndented? depth line = some (decide (depth ≤ 0) && startsFlush line.toList) := by
  unfold endsIndented?
  cases hchars : line.toList with
  | nil => simp [hchars, isBlankLine] at h
  | cons c rest => by_cases hdepth : depth ≤ 0 <;> simp [hdepth, startsFlush]

theorem indentEndFrom_eq (above rest : List String) (depth : Int) (last : Nat) :
    indentEndFrom (above ++ rest) depth last above.length =
      some (if indentExtent depth rest = 0 then last
        else above.length + indentExtent depth rest - 1) := by
  induction rest generalizing above depth last with
  | nil =>
    rw [indentEndFrom, if_neg (by simp)]
    simp [indentExtent]
  | cons line rest ih =>
    have hbelow : ∀ depth last, indentEndFrom (above ++ line :: rest) depth last
        (above.length + 1) = some (if indentExtent depth rest = 0 then last
          else above.length + 1 + indentExtent depth rest - 1) := by
      intro depth last
      simpa using ih (above ++ [line]) depth last
    rw [indentEndFrom, if_pos (by simp), read_head]
    simp only [Option.bind_eq_bind, Option.bind_some, indentExtent]
    by_cases hblank : isBlankLine line.toList = true
    -- a blank line is in the block only if a line of the block follows it, so `last` stays behind
    · simp only [if_pos hblank, hbelow]
      cases indentExtent depth rest <;> simp
      omega
    · simp only [if_neg hblank, endsIndented?_eq depth (by simpa using hblank), Option.bind_some]
      split
      · simp
      · rw [hbelow]
        split <;> simp <;> omega

theorem endsUnopened?_eq (unopened : Bool) (line : String) : endsUnopened? d unopened line =
    some (unopened &&
      (isBlankLine (plainChars .braces line.toList) || startsDefinition d line)) := by
  unfold endsUnopened? startsDefinition
  cases unopened with
  | false => rfl
  | true =>
    cases hchars : line.toList with
    | nil => simp [plainChars, emptyLiterals, beforeMark, isBlankLine]
    | cons c rest => cases isBlankLine (plainChars .braces (c :: rest)) <;> simp

theorem braceEndFrom_eq (above rest : List String) {i : Nat} (hi : i ≤ above.length)
    (opened : Bool) (depth : Int) :
    braceEndFrom d (above ++ rest) i opened depth above.length =
      (above.length + braceExtent d (above.length == i) opened depth rest).ppred := by
  induction rest generalizing above opened depth with
  | nil =>
    rw [braceEndFrom, if_neg (by simp)]
    simp [braceExtent]
  | cons line rest ih =>
    have hlater : (above.length + 1 == i) = false := by simp; omega
    have hbelow : ∀ opened depth, braceEndFrom d (above ++ line :: rest) i opened depth
        (above.length + 1) =
          (above.length + 1 + braceExtent d false opened depth rest).ppred := by
      intro opened depth
      simpa [hlater] using ih (above ++ [line]) (by simp; omega) opened depth
    have hhead : decide (i < above.length) = !(above.length == i) := by
      rw [Bool.eq_iff_iff]
      simp
      omega
    rw [braceEndFrom, if_pos (by simp), read_head]
    simp only [Option.bind_eq_bind, Option.bind_some, braceExtent, endsUnopened?_eq, hhead]
    split
    -- below the head there is a line above, which is then the last one
    · rfl
    · split
      · rfl
      · split
        · rfl
        · rw [hbelow, Nat.add_assoc]

theorem decoratedFrom_eq (above rest : List String) :
    decoratedFrom (above ++ rest) above.length =
      some (above.length - (above.reverse.takeWhile isDecorator).length) := by
  induction above using List.reverseRecOn generalizing rest with
  | nil => simp [decoratedFrom]
  | append_singleton above line ih =>
    have hup := ih (line :: rest)
    rw [List.length_append, List.length_singleton, List.append_assoc, List.singleton_append,
      decoratedFrom, read_head, List.reverse_append, List.reverse_singleton,
      List.singleton_append]
    simp only [Option.bind_eq_bind, Option.bind_some]
    by_cases hmark : isDecorator line = true
    · rw [if_pos hmark, hup, List.takeWhile_cons_of_pos hmark]
      simp
    · rw [if_neg hmark, List.takeWhile_cons_of_neg hmark]
      simp

end Ends

section Lines

variable {d : Descriptor} {style : BlockStyle} {lines : List String} {i : Nat}

/-- A scan that began at line `i` of `count` lines has read only what is there and has ended at
one of the lines, not above line `i`; from that line to this one there are `size` lines. -/
def EndsInside (scan : Option Nat) (count i size : Nat) : Prop :=
  ∃ e, scan = some e ∧ i ≤ e ∧ e < count ∧ e + 1 = i + size

theorem EndsInside.of_ppred {scan : Option Nat} {count size : Nat}
    (hscan : scan = (i + size).ppred) (hsize : 0 < size) (hbound : i + size ≤ count) :
    EndsInside scan count i size := by
  refine ⟨i + size - 1, ?_, by omega, by omega, by omega⟩
  rw [hscan, Nat.ppred_eq_some]
  omega

theorem statementEnd?_inside (style : BlockStyle) (above below : List String) (head : String) :
    EndsInside (statementEnd? style (above ++ head :: below) above.length)
      (above ++ head :: below).length above.length (statementLength style 0 (head :: below)) := by
  have hpos := statementLength_pos style 0 head below
  have hle := statementLength_le style 0 (head :: below)
  exact .of_ppred (statementEndFrom_eq ..) hpos (by simp only [List.length_append]; omega)

theorem indentEnd?_inside (above below : List String) (head : String) :
    EndsInside (indentEnd? (above ++ head :: below) above.length)
      (above ++ head :: below).length above.length
      (1 + indentExtent (plainDepth .indent head) below) := by
  have hle := indentExtent_le (plainDepth .indent head) below
  refine .of_ppred ?_ (by omega) (by simp only [List.length_append, List.length_cons]; omega)
  have hblock := indentEndFrom_eq (above ++ [head]) below (plainDepth .indent head) above.length
  rw [List.append_assoc, List.singleton_append, List.length_append, List.length_singleton]
    at hblock
  rw [indentEnd?, read_head]
  simp only [Option.bind_eq_bind, Option.bind_some, hblock]
  symm
  rw [Nat.ppred_eq_some]
  split <;> omega

theorem braceExtent_pos (d : Descriptor) (depth : Int) (line : String) (rest : List String) :
    0 < braceExtent d true false depth (line :: rest) := by
  simp only [braceExtent, Bool.not_true, Bool.and_false, Bool.false_and, Bool.false_eq_true,
    if_false]
  split
  · exact Nat.one_pos
  · split <;> omega

theorem braceEnd?_inside (d : Descriptor) (above below : List String) (head : String) :
    EndsInside (braceEnd? d (above ++ head :: below) above.length)
      (above ++ head :: below).length above.length
      (braceExtent d true false 0 (head :: below)) := by
  have hpos := braceExtent_pos d 0 head below
  have hle := braceExtent_le d true false 0 (head :: below)
  refine .of_ppred ?_ hpos (by simp only [List.length_append]; omega)
  have hblock := braceEndFrom_eq (d := d) above (head :: below) (Nat.le_refl above.length) false 0
  rwa [beq_self_eq_true] at hblock

theorem lastLine?_inside (d : Descriptor) (above below : List String) (head : String) :
    EndsInside (lastLine? d (above ++ head :: below) above.length)
      (above ++ head :: below).length above.length (blockLength d (head :: below)) := by
  unfold lastLine? blockLength
  cases d.blockStyle with
  | indent => exact indentEnd?_inside above below head
  | braces => exact braceEnd?_inside d above below head

theorem firstLine?_eq (d : Descriptor) (above rest : List String) :
    firstLine? d (above ++ rest) above.length =
      some (above.length - (decorators d above.reverse).length) := by
  unfold firstLine? decorators
  cases d.blockStyle with
  | indent => exact decoratedFrom_eq above rest
  | braces => rfl

theorem exists_split (h : i < lines.length) : ∃ above below,
    lines = above ++ lines[i] :: below ∧ above.length = i ∧ below = lines.drop (i + 1) :=
  ⟨lines.take i, lines.drop (i + 1), by simp, by simp; omega, rfl⟩

end Lines

/-- Brackets that are never closed reach down to the last line. -/
example : statementEnd? .indent ["from a import (b", "", "c"] 0 = some 2 ∧
    indentEnd? ["x = [", "", "y"] 0 = some 2 ∧
    braceEnd? Language.java ["class A \x7b", "", "y"] 0 = some 2 :=
  ⟨by decide +kernel, by decide +kernel, by decide +kernel⟩

end SnippetRunner.Source
