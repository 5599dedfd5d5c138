import Mathlib.Algebra.Order.Ring.Int
import SnippetRunner.Proofs.Source.Comments

/-!
Import statements and the selection. Where the import statements of a file are is settled before
anything is selected: there is one list of them, from the top down to the first definition. A
selection only filters this list, by where its statements start.
-/
namespace SnippetRunner.Source

def depthAfter (style : BlockStyle) (lines : List String) : Int :=
  (lines.map (plainDepth style)).sum

/-- After some lines a statement may end: no bracket is open and the last line does not go on. -/
def MayEnd (style : BlockStyle) (lines : List String) : Prop :=
  depthAfter style lines ≤ 0 ∧
    ∀ line ∈ lines.getLast?, isContinued (plainChars style line.toList) = false

/-- Some lines from the first on make up one statement: it ends where it may end for the first time,
or with the last line. -/
structure OneStatement (style : BlockStyle) (lines taken : List String) : Prop where
  front : taken <+: lines
  first : ∀ front, front <+: taken → front ≠ [] → MayEnd style front → front = taken
  ends : MayEnd style taken ∨ taken = lines

def LineAt (number : Nat) (lines : List String) (k : Nat) (line : String) : Prop :=
  number ≤ k ∧ lines[k - number]? = some line

def Statement.Covers (s : Statement) (k : Nat) : Prop :=
  s.start ≤ k ∧ k < s.start + s.lines.length

/-- A line of some kind stands at `k`, outside all of some statements. -/
def LineOutside (kind : String → Prop) (number : Nat) (lines : List String)
    (statements : List Statement) (k : Nat) : Prop :=
  (∃ line, LineAt number lines k line ∧ kind line) ∧ ∀ s ∈ statements, ¬ s.Covers k

/-- The import statements at the head of some lines, which are counted from `number` on: each takes
the lines of one statement and is headed by an import, and they come one after the other. None of
them starts after a line outside them all that defines a name, and before the first such line they
hold every import. -/
structure LeadingImports (d : Descriptor) (number : Nat) (lines : List String)
    (statements : List Statement) : Prop where
  taken : ∀ s ∈ statements, number ≤ s.start ∧
    OneStatement d.blockStyle (lines.drop (s.start - number)) s.lines
  headed : ∀ s ∈ statements, ∃ line ∈ s.lines.head?, d.isImport line = true
  apart : statements.Pairwise fun a b => a.start + a.lines.length ≤ b.start
  leading : ∀ k, LineOutside (d.definesName · = true) number lines statements k →
    ∀ s ∈ statements, s.start < k
  complete : ∀ k line, LineAt number lines k line → d.isImport line = true →
    (∀ j < k, ¬ LineOutside (d.definesName · = true) number lines statements j) →
      ∃ s ∈ statements, s.Covers k

section Extent

variable {style : BlockStyle} {depth : Int} {lines : List String}

@[simp] theorem depthAfter_nil (style : BlockStyle) : depthAfter style [] = 0 := rfl

@[simp] theorem depthAfter_cons (style : BlockStyle) (line : String) (lines : List String) :
    depthAfter style (line :: lines) = plainDepth style line + depthAfter style lines := by
  simp [depthAfter]

/-- A statement may end after some lines, when brackets are open before them. -/
def MayEndAt (style : BlockStyle) (depth : Int) (lines : List String) : Prop :=
  depth + depthAfter style lines ≤ 0 ∧
    ∀ line ∈ lines.getLast?, isContinued (plainChars style line.toList) = false

theorem mayEndAt_zero : MayEndAt style 0 lines ↔ MayEnd style lines := by
  rw [MayEndAt, MayEnd, zero_add]

theorem mayEndAt_single {line : String} : MayEndAt style depth [line] ↔
    (depth + plainDepth style line ≤ 0 &&
      !isContinued (plainChars style line.toList)) = true := by
  simp [MayEndAt]

theorem mayEndAt_cons {line : String} (hne : lines ≠ []) :
    MayEndAt style depth (line :: lines) ↔
      MayEndAt style (depth + plainDepth style line) lines := by
  rw [MayEndAt, MayEndAt, depthAfter_cons, List.getLast?_cons_of_ne_nil hne, add_assoc]

theorem statementLength_cons (style : BlockStyle) (depth : Int) (line : String)
    (rest : List String) : statementLength style depth (line :: rest) =
      if (depth + plainDepth style line ≤ 0 &&
        !isContinued (plainChars style line.toList)) = true then 1
      else 1 + statementLength style (depth + plainDepth style line) rest := by
  rfl

theorem statementLength_le (style : BlockStyle) (depth : Int) (lines : List String) :
    statementLength style depth lines ≤ lines.length := by
  induction lines generalizing depth with
  | nil => simp [statementLength]
  | cons line rest ih =>
    have hrest := ih (depth + plainDepth style line)
    rw [statementLength_cons, List.length_cons]
    split <;> omega

/-- Of lines that are there a statement takes some. -/
theorem eq_nil_of_take_statementLength
    (h : lines.take (statementLength style depth lines) = []) : lines = [] := by
  cases lines with
  | nil => rfl
  | cons line rest =>
    have hpos := statementLength_pos style depth line rest
    rcases List.take_eq_nil_iff.mp h with hzero | hnil
    · omega
    · exact hnil

/-- A statement ends where it may end for the first time, when brackets are open before it. -/
theorem take_statementLength (style : BlockStyle) (depth : Int) (lines : List String) :
    (∀ front, front <+: lines.take (statementLength style depth lines) → front ≠ [] →
      MayEndAt style depth front → front = lines.take (statementLength style depth lines)) ∧
    (MayEndAt style depth (lines.take (statementLength style depth lines)) ∨
      lines.take (statementLength style depth lines) = lines) := by
  induction lines generalizing depth with
  | nil => simp [statementLength]
  | cons line rest ih =>
    obtain ⟨hfirst, hends⟩ := ih (depth + plainDepth style line)
    rw [statementLength_cons]
    split
    · rename_i hone
      refine ⟨fun front hfront hne _ => ?_, Or.inl (mayEndAt_single.mpr hone)⟩
      obtain ⟨top, tail, rfl⟩ := List.exists_cons_of_ne_nil hne
      obtain ⟨rfl, htail⟩ := List.cons_prefix_cons.mp hfront
      rw [List.take_zero, List.prefix_nil] at htail
      rw [htail]
      rfl
    · rename_i hone
      rw [← mayEndAt_single] at hone
      have hsome := @eq_nil_of_take_statementLength style (depth + plainDepth style line) rest
      rw [Nat.add_comm, List.take_succ_cons]
      generalize rest.take _ = more at hfirst hends hsome ⊢
      constructor
      · intro front hfront hne hmay
        obtain ⟨top, tail, rfl⟩ := List.exists_cons_of_ne_nil hne
        obtain ⟨rfl, htail⟩ := List.cons_prefix_cons.mp hfront
        by_cases hnil : tail = []
        · exact absurd (hnil ▸ hmay) hone
        · rw [hfirst tail htail hnil ((mayEndAt_cons hnil).mp hmay)]
      · by_cases hnil : more = []
        · exact Or.inr (by rw [hnil, hsome hnil])
        · exact hends.imp (mayEndAt_cons hnil).mpr (congrArg (List.cons line))

/-- The lines of a statement at the head of some lines. -/
theorem oneStatement_take (style : BlockStyle) (lines : List String) :
    OneStatement style lines (lines.take (statementLength style 0 lines)) := by
  obtain ⟨hfirst, hends⟩ := take_statementLength style 0 lines
  simp only [mayEndAt_zero] at hfirst hends
  exact ⟨List.take_prefix .., hfirst, hends⟩

end Extent

section Gathered

variable {d : Descriptor} {first bound : Int} {number size : Nat} {line : String}
  {lines rest : List String} {statements : List Statement} {s : Statement}
  {kind : String → Prop}

theorem lineAt_top {other : String} : LineAt number (line :: rest) number other ↔ line = other := by
  simp [LineAt]

theorem lineAt_drop {k : Nat} (hk : number + size ≤ k) :
    LineAt (number + size) (lines.drop size) k line ↔ LineAt number lines k line := by
  rw [LineAt, LineAt, List.getElem?_drop, show size + (k - (number + size)) = k - number by omega]
  exact and_congr_left fun _ => ⟨fun _ => by omega, fun _ => hk⟩

theorem lineOutside_drop {k : Nat} (hk : number + size ≤ k) :
    LineOutside kind (number + size) (lines.drop size) statements k ↔
      LineOutside kind number lines statements k := by
  simp only [LineOutside, lineAt_drop hk]

theorem covers_take {k : Nat} (hat : LineAt number lines k line) :
    Statement.Covers ⟨number, lines.take size⟩ k ↔ k < number + size := by
  have hindex := (List.getElem?_eq_some_iff.mp hat.2).1
  have hle := hat.1
  simp only [Statement.Covers, List.length_take]
  omega

theorem LineOutside.le {k : Nat} (h : LineOutside kind number lines statements k) :
    number ≤ k := by
  obtain ⟨⟨line, hat, -⟩, -⟩ := h
  exact hat.1

theorem leadingImports_nil (number : Nat) : LeadingImports d number [] [] where
  taken := by simp
  headed := by simp
  apart := .nil
  leading := by simp
  complete := by simp [LineAt]

/-- Below a definition nothing is gathered. -/
theorem leadingImports_ended (himport : d.isImport line = false)
    (hdefines : d.definesName line = true) :
    LeadingImports d number (line :: rest) [] where
  taken := by simp
  headed := by simp
  apart := .nil
  leading := by simp
  complete := by
    intro k other hat hother hnone
    have htop : LineOutside (d.definesName · = true) number (line :: rest) [] number :=
      ⟨⟨line, lineAt_top.mpr rfl, hdefines⟩, by simp⟩
    rcases Nat.lt_or_eq_of_le hat.1 with hlater | rfl
    · exact absurd htop (hnone number hlater)
    · rw [← lineAt_top.mp hat, himport] at hother
      cases hother

/-- Statements further down take lines of the whole. -/
theorem LeadingImports.taken_drop
    (h : LeadingImports d (number + size) (lines.drop size) statements)
    (hs : s ∈ statements) : number + size ≤ s.start ∧
      OneStatement d.blockStyle (lines.drop (s.start - number)) s.lines := by
  obtain ⟨hle, hone⟩ := h.taken s hs
  rw [List.drop_drop, show size + (s.start - (number + size)) = s.start - number by omega] at hone
  exact ⟨hle, hone⟩

/-- A line that is neither an import nor a definition changes nothing. -/
theorem LeadingImports.skip
    (h : LeadingImports d (number + 1) ((line :: rest).drop 1) statements)
    (himport : d.isImport line = false) (hdefines : d.definesName line = false) :
    LeadingImports d number (line :: rest) statements where
  taken := by
    intro s hs
    obtain ⟨hle, hone⟩ := h.taken_drop hs
    exact ⟨by omega, hone⟩
  headed := h.headed
  apart := h.apart
  leading := by
    intro k hk
    obtain ⟨⟨other, hat, hother⟩, -⟩ := id hk
    rcases Nat.lt_or_eq_of_le hat.1 with hlater | rfl
    · exact h.leading k ((lineOutside_drop hlater).mpr hk)
    · rw [← lineAt_top.mp hat, hdefines] at hother
      cases hother
  complete := by
    intro k other hat hother hnone
    rcases Nat.lt_or_eq_of_le hat.1 with hlater | rfl
    · refine h.complete k other ((lineAt_drop hlater).mpr hat) hother ?_
      intro j hj hdefined
      exact hnone j hj ((lineOutside_drop hdefined.le).mp hdefined)
    · rw [← lineAt_top.mp hat, himport] at hother
      cases hother

/-- A statement at the top stands before those further down. -/
theorem LeadingImports.add {size : Nat} (himport : d.isImport line = true)
    (hsize : size = statementLength d.blockStyle 0 (line :: rest))
    (h : LeadingImports d (number + size) ((line :: rest).drop size) statements) :
    LeadingImports d number (line :: rest) (⟨number, (line :: rest).take size⟩ :: statements) where
  taken := by
    refine List.forall_mem_cons.mpr ⟨⟨Nat.le_refl _, ?_⟩, fun s hs => ?_⟩
    · rw [Nat.sub_self, List.drop_zero, hsize]
      exact oneStatement_take ..
    · obtain ⟨hle, hone⟩ := h.taken_drop hs
      exact ⟨by omega, hone⟩
  headed := by
    refine List.forall_mem_cons.mpr ⟨⟨line, ?_, himport⟩, h.headed⟩
    have hpos := statementLength_pos d.blockStyle 0 line rest
    obtain ⟨n, rfl⟩ : ∃ n, size = n + 1 := ⟨size - 1, by omega⟩
    rfl
  apart := by
    refine List.pairwise_cons.mpr ⟨fun s hs => ?_, h.apart⟩
    have hle := (h.taken_drop hs).1
    have htake := List.length_take_le size (line :: rest)
    dsimp only
    omega
  leading := by
    intro k hk
    obtain ⟨⟨other, hat, hother⟩, houtside⟩ := id hk
    obtain ⟨htop, hbelow⟩ := List.forall_mem_cons.mp houtside
    rw [covers_take hat, Nat.not_lt] at htop
    have hpos := statementLength_pos d.blockStyle 0 line rest
    refine List.forall_mem_cons.mpr ⟨by dsimp only; omega, ?_⟩
    exact h.leading k ((lineOutside_drop htop).mpr ⟨⟨other, hat, hother⟩, hbelow⟩)
  complete := by
    intro k other hat hother hnone
    by_cases htop : k < number + size
    · exact ⟨_, List.mem_cons_self .., (covers_take hat).mpr htop⟩
    · rw [Nat.not_lt] at htop
      have hbelow : ∀ j < k, ¬ LineOutside (d.definesName · = true) (number + size)
          ((line :: rest).drop size) statements j := by
        intro j hj hdefined
        have hlater := hdefined.le
        obtain ⟨⟨found, hfound, hdefines⟩, houtside⟩ := (lineOutside_drop hlater).mp hdefined
        refine hnone j hj ⟨⟨found, hfound, hdefines⟩, List.forall_mem_cons.mpr ⟨?_, houtside⟩⟩
        rw [covers_take hfound]
        omega
      obtain ⟨s, hs, hcovers⟩ := h.complete k other ((lineAt_drop htop).mpr hat) hother hbelow
      exact ⟨s, List.mem_cons_of_mem _ hs, hcovers⟩

theorem definesName_of_isEmpty (h : d.definitionPatterns.isEmpty = true) (line : String) :
    d.definesName line = false := by
  rw [List.isEmpty_iff] at h
  simp [Descriptor.definesName, Descriptor.definedName?, h]

/-- Only a line that defines a name ends the region, unless its bound does. -/
theorem endsRegion_iff (hbound : d.definitionPatterns.isEmpty = true → (number : Int) < bound) :
    endsRegion d bound number line = true ↔
      d.isImport line = false ∧ d.definesName line = true := by
  rw [endsRegion]
  split
  · rename_i hempty
    have hlater := hbound hempty
    rw [definesName_of_isEmpty hempty]
    simp [hlater]
  · simp

/-- What the scan gathers, unless its region is bounded from below. -/
theorem leadingImports_statementsFrom
    (hbound : d.definitionPatterns.isEmpty = true → (number + lines.length : Int) ≤ bound) :
    LeadingImports d number lines (statementsFrom d bound number lines) := by
  fun_induction statementsFrom d bound number lines with
  | case1 => exact leadingImports_nil _
  | case2 number line rest hends =>
    rw [List.length_cons] at hbound
    obtain ⟨himport, hdefines⟩ := (endsRegion_iff fun h => by have := hbound h; omega).mp hends
    exact leadingImports_ended himport hdefines
  | case3 number line rest hgoes himport size =>
    rename_i ih
    refine LeadingImports.add himport rfl (ih fun h => ?_)
    have hle := hbound h
    have hsize := statementLength_le d.blockStyle 0 (line :: rest)
    simp only [List.length_drop]
    omega
  | case4 number line rest hgoes himport ih =>
    rw [List.length_cons] at hbound
    have hnone : d.isImport line = false := by simpa using himport
    have hends := (endsRegion_iff fun h => by have := hbound h; omega).not.mp hgoes
    refine LeadingImports.skip (ih fun h => ?_) hnone ?_
    · have hle := hbound h
      omega
    · simpa [hnone] using hends

/-- With definitions to end it, the region does not depend on the bound. -/
theorem statementsFrom_eq_of_definitions (h : d.definitionPatterns.isEmpty = false) :
    statementsFrom d first number lines = statementsFrom d bound number lines := by
  fun_induction statementsFrom d bound number lines with
  | case1 => rw [statementsFrom]
  | case2 number line rest hends =>
    have hsame : endsRegion d first number line = true := by simpa [endsRegion, h] using hends
    rw [statementsFrom, if_pos hsame]
  | case3 number line rest hgoes himport size =>
    rename_i ih
    have hsame : endsRegion d first number line = false := by simpa [endsRegion, h] using hgoes
    rw [statementsFrom_import hsame himport, ih]
  | case4 number line rest hgoes himport ih =>
    have hsame : ¬ endsRegion d first number line = true := by simpa [endsRegion, h] using hgoes
    rw [statementsFrom, if_neg hsame, if_neg himport, ih]

/-- Without definitions the region ends at the bound. -/
theorem endsRegion_of_isEmpty (h : d.definitionPatterns.isEmpty = true) :
    endsRegion d first number line = true ↔ first ≤ (number : Int) := by
  simp [endsRegion, h]

/-- Nothing starts above the first line. -/
theorem filter_statementsFrom_eq_nil (h : first ≤ (number : Int)) :
    (statementsFrom d bound number lines).filter (fun s => (s.start : Int) < first) = [] := by
  rw [List.filter_eq_nil_iff]
  intro s hs
  have hstart := le_start_of_mem_statementsFrom s hs
  simp only [decide_eq_true_eq]
  omega

/-- Without definitions the bound leaves out what starts at it or after it. -/
theorem statementsFrom_eq_filter (h : d.definitionPatterns.isEmpty = true) (hle : first ≤ bound) :
    statementsFrom d first number lines =
      (statementsFrom d bound number lines).filter fun s => (s.start : Int) < first := by
  have hended : ∀ {from_ : Nat} {top : String} {below : List String}, first ≤ (from_ : Int) →
      statementsFrom d first from_ (top :: below) = [] := by
    intro from_ top below hfrom
    rw [statementsFrom, if_pos ((endsRegion_of_isEmpty h).mpr hfrom)]
  fun_induction statementsFrom d bound number lines with
  | case1 => rw [statementsFrom]; rfl
  | case2 number line rest hends =>
    rw [hended (hle.trans ((endsRegion_of_isEmpty h).mp hends))]
    rfl
  | case3 number line rest hgoes himport size =>
    rename_i ih
    by_cases hnumber : first ≤ (number : Int)
    · have hbelow : first ≤ ((number + size : Nat) : Int) := by omega
      rw [hended hnumber, List.filter_cons_of_neg (by simpa using hnumber),
        filter_statementsFrom_eq_nil hbelow]
    · have hgoes' : endsRegion d first number line = false := by
        rw [← Bool.not_eq_true, endsRegion_of_isEmpty h]
        exact hnumber
      rw [statementsFrom_import hgoes' himport,
        List.filter_cons_of_pos (by simpa using hnumber), ih]
  | case4 number line rest hgoes himport ih =>
    by_cases hnumber : first ≤ (number : Int)
    · have hbelow : first ≤ ((number + 1 : Nat) : Int) := by omega
      rw [hended hnumber, filter_statementsFrom_eq_nil hbelow]
    · rw [statementsFrom, if_neg ((endsRegion_of_isEmpty h).not.mpr hnumber), if_neg himport, ih]

theorem start_lt_of_mem_statementsFrom :
    ∀ s ∈ statementsFrom d bound number lines, s.start < number + lines.length := by
  fun_induction statementsFrom d bound number lines with
  | case1 => simp
  | case2 => simp
  | case3 number line rest hgoes himport size =>
    rename_i ih
    have hsize := statementLength_le d.blockStyle 0 (line :: rest)
    refine List.forall_mem_cons.mpr ⟨by simp, fun s hs => ?_⟩
    have hlt := ih s hs
    rw [List.length_drop] at hlt
    omega
  | case4 number line rest hgoes himport ih =>
    intro s hs
    have hlt := ih s hs
    rw [List.length_cons]
    omega

/-- A bound below all lines leaves nothing out. -/
theorem statementsFrom_of_below (h : d.definitionPatterns.isEmpty = true) (hle : bound ≤ first)
    (hbound : (number + lines.length : Int) ≤ bound) :
    statementsFrom d first number lines = statementsFrom d bound number lines := by
  rw [statementsFrom_eq_filter h hle, List.filter_eq_self.mpr]
  intro s hs
  have hlt := start_lt_of_mem_statementsFrom s hs
  simp only [decide_eq_true_eq]
  omega

end Gathered

section Files

/-- A line that defines something defines a name or the empty one. -/
theorem isSome_definedName?_iff (d : Descriptor) (line : String) :
    (d.definedName? line).isSome = true ↔
      d.definesName line = true ∨ d.definedName? line = some "" := by
  rw [Descriptor.definesName]
  cases d.definedName? line with
  | none => simp
  | some name => simp [or_comm, em]

/-- There is one list of the import statements of a file, whatever is selected. In a language with
definitions those that start in the selection are left out of it, in one without those that start
at the selection or after it. One of them starts after a definition outside them all only if that
is a definition of the empty name. -/
theorem imports_filtered (f : SourceFile) :
    ∃ statements, LeadingImports f.descriptor 1 f.lines statements ∧
      (∀ first last : Int, f.imports first last = statements.filter fun s =>
        if f.descriptor.definitionPatterns = [] then (s.start : Int) < first
        else ¬ (first ≤ s.start ∧ s.start ≤ last)) ∧
      ((∀ k, LineOutside (fun line => (f.descriptor.definedName? line).isSome = true) 1 f.lines
          statements k → ∀ s ∈ statements, s.start < k) ↔
        ∀ k, LineOutside (f.descriptor.definedName? · = some "") 1 f.lines statements k →
          ∀ s ∈ statements, s.start < k) := by
  have hbound : ((1 : Nat) + f.lines.length : Int) ≤ 1 + f.lines.length := by simp
  have hleading : LeadingImports f.descriptor 1 f.lines
      (statementsFrom f.descriptor (1 + f.lines.length) 1 f.lines) :=
    leadingImports_statementsFrom fun _ => hbound
  refine ⟨_, hleading, fun first last => ?_, fun h k hk => ?_, fun h k hk => ?_⟩
  · rw [imports_eq_filter]
    by_cases hnone : f.descriptor.definitionPatterns = []
    · have hempty : f.descriptor.definitionPatterns.isEmpty = true := by simp [hnone]
      -- a bound below the selection and the file shows what is left out above the selection
      have hbelow : statementsFrom f.descriptor first 1 f.lines = _ :=
        statementsFrom_eq_filter hempty (le_max_left first (1 + f.lines.length))
      rw [statementsFrom_of_below hempty (le_max_right ..) hbound] at hbelow
      rw [hbelow, List.filter_filter]
      refine List.filter_congr fun s _ => ?_
      simp only [hnone, if_true]
      rw [Bool.eq_iff_iff]
      simp
      omega
    · have hsome : f.descriptor.definitionPatterns.isEmpty = false := by simpa using hnone
      rw [statementsFrom_eq_of_definitions hsome]
      refine List.filter_congr fun s _ => ?_
      simp only [hnone, if_false]
      rw [Bool.eq_iff_iff]
      simp
  · obtain ⟨⟨line, hat, hempty⟩, houtside⟩ := hk
    exact h k ⟨⟨line, hat, (isSome_definedName?_iff _ line).mpr (Or.inr hempty)⟩, houtside⟩
  · obtain ⟨⟨line, hat, hdefines⟩, houtside⟩ := hk
    rcases (isSome_definedName?_iff _ line).mp hdefines with hnamed | hempty
    · exact hleading.leading k ⟨⟨line, hat, hnamed⟩, houtside⟩
    · exact h k ⟨⟨line, hat, hempty⟩, houtside⟩

/-- Assignments to nothing at all are definitions too. -/
private def nameless : Descriptor :=
  { Language.python with
    definitionPatterns :=
      [.sequence [.start, .name (.many ⟨false, [.word]⟩ false), .blanks, .text "="]] }

private def belowNameless : SourceFile :=
  ⟨⟨.root, ["a.py"]⟩, nameless, ["= 1", "import os"]⟩

/-- The first line defines the empty name, and the import below it is found all the same. -/
theorem imports_filtered_nameless :
    nameless.isImport "= 1" = false ∧ nameless.definedName? "= 1" = some "" ∧
      belowNameless.imports 5 5 = [⟨2, ["import os"]⟩] := by
  have hempty : nameless.isImport "= 1" = false ∧ nameless.definedName? "= 1" = some "" := by
    decide
  have hbelow : nameless.isImport "import os" = true := by decide
  have hlength : statementLength nameless.blockStyle 0 ["import os"] = 1 := by decide +kernel
  have hpatterns : nameless.definitionPatterns.isEmpty = false ∧
      nameless.importPatterns.isEmpty = false := by decide
  refine ⟨hempty.1, hempty.2, ?_⟩
  simp [SourceFile.imports, belowNameless, statementsFrom, endsRegion, Descriptor.definesName,
    hempty, hbelow, hlength, hpatterns]

end Files

end SnippetRunner.Source
