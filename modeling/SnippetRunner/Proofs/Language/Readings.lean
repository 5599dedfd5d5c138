import Mathlib.Data.Char
import Mathlib.Order.Basic
import SnippetRunner.Language.BuiltIn
import SnippetRunner.Source.File

/-!
What a pattern reads at the head of a line. The characters that a reading may begin with, end with
and hold, and whether it may read nothing at all, can be computed from the pattern; so can it be
seen that a pattern never looks for what must not follow. A pattern of that kind still reads what
it read when more stands behind it, provided that no word goes on there.
-/
namespace SnippetRunner

open Text

namespace Pattern

def mayBeEmpty : Pattern → Bool
  | .start | .boundary | .optional _ | .repeated _ | .notNext _ => true
  | .text word => word.toList.isEmpty
  | .one _ => false
  | .many _ atLeastOne => !atLeastOne
  | .seq p q => p.mayBeEmpty && q.mayBeEmpty
  | .alt p q => p.mayBeEmpty || q.mayBeEmpty
  | .name p => p.mayBeEmpty

def opening : Pattern → List CharSet
  | .start | .boundary | .notNext _ => []
  | .text word => word.toList.head?.toList.map fun c => ⟨false, [.single c]⟩
  | .one k | .many k _ => [k]
  | .seq p q => p.opening ++ if p.mayBeEmpty then q.opening else []
  | .alt p q => p.opening ++ q.opening
  | .optional p | .repeated p | .name p => p.opening

def closing : Pattern → List CharSet
  | .start | .boundary | .notNext _ => []
  | .text word => word.toList.getLast?.toList.map fun c => ⟨false, [.single c]⟩
  | .one k | .many k _ => [k]
  | .seq p q => q.closing ++ if q.mayBeEmpty then p.closing else []
  | .alt p q => p.closing ++ q.closing
  | .optional p | .repeated p | .name p => p.closing

def alphabet : Pattern → List CharSet
  | .start | .boundary | .notNext _ => []
  | .text word => word.toList.map fun c => ⟨false, [.single c]⟩
  | .one k | .many k _ => [k]
  | .seq p q | .alt p q => p.alphabet ++ q.alphabet
  | .optional p | .repeated p | .name p => p.alphabet

def unnamed : Pattern → Bool
  | .start | .boundary | .text _ | .one _ | .many _ _ | .notNext _ => true
  | .seq p q | .alt p q => p.unnamed && q.unnamed
  | .optional p | .repeated p => p.unnamed
  | .name _ => false

def looksNoFurther : Pattern → Bool
  | .start | .boundary | .text _ | .one _ | .many _ _ => true
  | .seq p q | .alt p q => p.looksNoFurther && q.looksNoFurther
  | .optional p | .repeated p | .name p => p.looksNoFurther
  | .notNext _ => false

def Among (sets : List CharSet) (c : Char) : Prop :=
  ∃ k ∈ sets, k.holds c = true

structure Fits (p : Pattern) (read : List Char) : Prop where
  empty : read = [] → p.mayBeEmpty = true
  first : ∀ c ∈ read.head?, Among p.opening c
  last : ∀ c ∈ read.getLast?, Among p.closing c
  all : ∀ c ∈ read, Among p.alphabet c

end Pattern

namespace Reading

def Opens (r : Reading) (sets : List CharSet) : Prop :=
  ∃ c rest, r.rest = c :: rest ∧ ∃ k ∈ sets, k.holds c = true

def extend (r : Reading) (more : List Char) : Reading :=
  ⟨r.prev, r.rest ++ more, r.named⟩

structure Passes (r r' : Reading) (read : List Char) : Prop where
  rest : r.rest = read ++ r'.rest
  prev : r'.prev = read.getLast?.or r.prev

theorem Passes.refl (r : Reading) : r.Passes r [] :=
  ⟨rfl, rfl⟩

theorem Passes.trans {r r' r'' : Reading} {read more : List Char} (h : r.Passes r' read)
    (hmore : r'.Passes r'' more) : r.Passes r'' (read ++ more) := by
  constructor
  · rw [h.rest, hmore.rest, List.append_assoc]
  · rw [hmore.prev, h.prev, List.getLast?_append, Option.or_assoc]

theorem passes_next {r : Reading} {c : Char} {rest : List Char} (h : r.rest = c :: rest)
    (named : Option (List Char)) : r.Passes ⟨some c, rest, named⟩ [c] :=
  ⟨h, rfl⟩

section Words

variable {r r' : Reading} {w : Char} {ws : List Char}

theorem skipWord_cons (h : skipWord (w :: ws) r = some r') :
    ∃ rest, r.rest = w :: rest ∧ skipWord ws ⟨some w, rest, r.named⟩ = some r' := by
  cases hrest : r.rest with
  | nil => simp [skipWord, hrest] at h
  | cons c rest =>
    by_cases hc : c = w
    · subst hc
      exact ⟨rest, rfl, by simpa [skipWord, hrest] using h⟩
    · simp [skipWord, hrest, hc] at h

theorem skipWord_passes (h : skipWord ws r = some r') : r.Passes r' ws ∧ r'.named = r.named := by
  induction ws generalizing r with
  | nil =>
    cases h
    exact ⟨.refl _, rfl⟩
  | cons w ws ih =>
    obtain ⟨rest, hrest, hnext⟩ := skipWord_cons h
    obtain ⟨hpasses, hnamed⟩ := ih hnext
    exact ⟨(passes_next hrest _).trans hpasses, hnamed⟩

theorem skipWord_extend (more : List Char) (h : skipWord ws r = some r') :
    skipWord ws (r.extend more) = some (r'.extend more) := by
  induction ws generalizing r with
  | nil =>
    cases h
    rfl
  | cons w ws ih =>
    obtain ⟨rest, hrest, hnext⟩ := skipWord_cons h
    simpa [skipWord, extend, hrest] using ih hnext

end Words

section Spans

variable {k : CharSet} {named : Option (List Char)} {prev : Option Char} {rest : List Char}
  {r : Reading}

theorem spans_eq_cons (k : CharSet) (named : Option (List Char)) (prev : Option Char)
    (rest : List Char) :
    ∃ others, spans k named prev rest = ⟨prev, rest, named⟩ :: others := by
  cases rest with
  | nil => exact ⟨[], rfl⟩
  | cons c rest => exact ⟨_, rfl⟩

theorem mem_drop_spans (h : r ∈ (spans k named prev rest).drop 1) :
    ∃ c tail, rest = c :: tail ∧ k.holds c = true ∧ r ∈ spans k named (some c) tail := by
  cases rest with
  | nil => simp [spans] at h
  | cons c tail =>
    by_cases hc : k.holds c = true
    · exact ⟨c, tail, rfl, hc, by simpa [spans, hc] using h⟩
    · simp [spans, hc] at h

theorem spans_passes (h : r ∈ spans k named prev rest) :
    ∃ read, (Reading.mk prev rest named).Passes r read ∧ (∀ c ∈ read, k.holds c = true) ∧
      r.named = named := by
  induction rest generalizing prev with
  | nil =>
    simp only [spans, List.mem_singleton] at h
    subst h
    exact ⟨[], .refl _, by simp, rfl⟩
  | cons c rest ih =>
    rcases List.mem_cons.mp h with rfl | h
    · exact ⟨[], .refl _, by simp, rfl⟩
    · split at h
      · rename_i hc
        obtain ⟨read, hpasses, hall, hnamed⟩ := ih h
        refine ⟨c :: read, (passes_next rfl _).trans hpasses, ?_, hnamed⟩
        exact List.forall_mem_cons.mpr ⟨hc, hall⟩
      · simp at h

theorem spans_extend (more : List Char) (h : r ∈ spans k named prev rest) :
    r.extend more ∈ spans k named prev (rest ++ more) := by
  induction rest generalizing prev with
  | nil =>
    simp only [spans, List.mem_singleton] at h
    obtain ⟨others, hothers⟩ := spans_eq_cons k named prev ([] ++ more)
    rw [hothers, h]
    exact List.mem_cons_self ..
  | cons c rest ih =>
    rcases List.mem_cons.mp h with rfl | h
    · exact List.mem_cons_self ..
    · split at h
      · rename_i hc
        simp only [List.cons_append, spans, hc, if_true]
        exact List.mem_cons_of_mem _ (ih h)
      · simp at h

end Spans

end Reading

namespace Pattern

open Reading

variable {p : Pattern} {r r' : Reading}

theorem mem_iterate {body : Reading → List Reading} {fuel : Nat}
    (h : r' ∈ readings.iterate body fuel r) :
    r' = r ∨ ∃ fuel' r'', fuel = fuel' + 1 ∧ r'' ∈ body r ∧ r''.rest.length < r.rest.length ∧
      r' ∈ readings.iterate body fuel' r'' := by
  cases fuel with
  | zero =>
    simp only [readings.iterate, List.mem_singleton] at h
    exact Or.inl h
  | succ fuel =>
    simp only [readings.iterate, List.mem_append, List.mem_flatMap, List.mem_filter,
      List.mem_singleton, decide_eq_true_eq] at h
    rcases h with ⟨r'', ⟨hbody, hshort⟩, hmore⟩ | h
    · exact Or.inr ⟨fuel, r'', rfl, hbody, hshort, hmore⟩
    · exact Or.inl h

theorem self_mem_iterate (body : Reading → List Reading) (fuel : Nat) (r : Reading) :
    r ∈ readings.iterate body fuel r := by
  cases fuel <;> simp [readings.iterate]

section Fitting

variable {q : Pattern} {read more : List Char}

theorem among_append {sets others : List CharSet} {c : Char} :
    Among (sets ++ others) c ↔ Among sets c ∨ Among others c := by
  simp [Among, or_and_right, exists_or]

theorem among_single (c : Char) : Among [⟨false, [.single c]⟩] c := by
  simp [Among, CharSet.holds, SetItem.holds]

theorem fits_nil (h : p.mayBeEmpty = true) : p.Fits [] :=
  ⟨fun _ => h, by simp, by simp, by simp⟩

theorem Fits.seq (hread : p.Fits read) (hmore : q.Fits more) :
    (Pattern.seq p q).Fits (read ++ more) := by
  constructor
  · intro hnil
    obtain ⟨hread', hmore'⟩ := List.append_eq_nil_iff.mp hnil
    simp [mayBeEmpty, hread.empty hread', hmore.empty hmore']
  · intro c hc
    rw [opening, among_append]
    cases read with
    | nil =>
      rw [hread.empty rfl, if_pos rfl]
      exact Or.inr (hmore.first c hc)
    | cons d read => exact Or.inl (hread.first c hc)
  · intro c hc
    rw [closing, among_append]
    rw [List.getLast?_append] at hc
    cases hlast : more.getLast? with
    | none =>
      rw [List.getLast?_eq_none_iff] at hlast
      subst hlast
      rw [hmore.empty rfl, if_pos rfl]
      exact Or.inr (hread.last c (by simpa using hc))
    | some d =>
      rw [hlast] at hc
      exact Or.inl (hmore.last c (hlast ▸ hc))
  · intro c hc
    rw [alphabet, among_append]
    exact (List.mem_append.mp hc).imp (hread.all c) (hmore.all c)

theorem Fits.repeated (hread : p.Fits read) (hmore : (Pattern.repeated p).Fits more) :
    (Pattern.repeated p).Fits (read ++ more) := by
  constructor
  · exact fun _ => rfl
  · intro c hc
    rw [List.head?_append, Option.mem_def, Option.or_eq_some_iff] at hc
    rcases hc with hc | ⟨-, hc⟩
    · exact hread.first c hc
    · exact hmore.first c hc
  · intro c hc
    rw [List.getLast?_append, Option.mem_def, Option.or_eq_some_iff] at hc
    rcases hc with hc | ⟨-, hc⟩
    · exact hmore.last c hc
    · exact hread.last c hc
  · intro c hc
    exact (List.mem_append.mp hc).elim (hread.all c) (hmore.all c)

theorem fits_text (word : String) : (Pattern.text word).Fits word.toList := by
  constructor
  · intro hnil
    simp [mayBeEmpty, hnil]
  · intro c hc
    simpa [opening, Option.mem_def.mp hc] using among_single c
  · intro c hc
    simpa [closing, Option.mem_def.mp hc] using among_single c
  · intro c hc
    exact ⟨_, List.mem_map_of_mem hc, by simp [CharSet.holds, SetItem.holds]⟩

theorem fits_set {k : CharSet} (hempty : read = [] → p.mayBeEmpty = true)
    (hopening : p.opening = [k]) (hclosing : p.closing = [k]) (halphabet : p.alphabet = [k])
    (hall : ∀ c ∈ read, k.holds c = true) : p.Fits read := by
  have hamong : ∀ c ∈ read, Among [k] c := fun c hc => ⟨k, List.mem_singleton_self k, hall c hc⟩
  constructor
  · exact hempty
  · exact fun c hc => hopening ▸ hamong c (List.mem_of_mem_head? hc)
  · exact fun c hc => hclosing ▸ hamong c (List.mem_of_mem_getLast? hc)
  · exact fun c hc => halphabet ▸ hamong c hc

/-- What each round of a repetition reads fits, and so does what they all read. -/
theorem iterate_fits {body : Reading → List Reading} {fuel : Nat}
    (hbody : ∀ r r', r' ∈ body r → ∃ read, r.Passes r' read ∧ p.Fits read ∧
      (p.unnamed = true → r'.named = r.named))
    (h : r' ∈ readings.iterate body fuel r) :
    ∃ read, r.Passes r' read ∧ (Pattern.repeated p).Fits read ∧
      (p.unnamed = true → r'.named = r.named) := by
  induction fuel generalizing r with
  | zero =>
    simp only [readings.iterate, List.mem_singleton] at h
    subst h
    exact ⟨[], .refl _, fits_nil rfl, fun _ => rfl⟩
  | succ fuel ih =>
    rcases mem_iterate h with rfl | ⟨fuel', r'', hfuel, hround, -, hnext⟩
    · exact ⟨[], .refl _, fits_nil rfl, fun _ => rfl⟩
    · cases hfuel
      obtain ⟨read, hpasses, hfits, hnamed⟩ := hbody r r'' hround
      obtain ⟨more, hpasses', hfits', hnamed'⟩ := ih hnext
      exact ⟨read ++ more, hpasses.trans hpasses', hfits.repeated hfits',
        fun hu => (hnamed' hu).trans (hnamed hu)⟩

/-- A reading passes over characters that fit the pattern. -/
theorem readings_fits (h : r' ∈ p.readings r) :
    ∃ read, r.Passes r' read ∧ p.Fits read ∧ (p.unnamed = true → r'.named = r.named) := by
  induction p generalizing r r' with
  | start | boundary | notNext =>
    simp only [readings] at h
    split at h
    · cases List.mem_singleton.mp h
      exact ⟨[], .refl _, fits_nil rfl, fun _ => rfl⟩
    · simp at h
  | text word =>
    simp only [readings, Option.mem_toList] at h
    obtain ⟨hpasses, hnamed⟩ := skipWord_passes h
    exact ⟨word.toList, hpasses, fits_text word, fun _ => hnamed⟩
  | one k =>
    simp only [readings] at h
    split at h
    · rename_i c rest hrest
      split at h
      · rename_i hc
        cases List.mem_singleton.mp h
        exact ⟨[c], passes_next hrest _, fits_set (by simp) rfl rfl rfl (by simpa using hc),
          fun _ => rfl⟩
      · simp at h
    · simp at h
  | many k atLeastOne =>
    simp only [readings, List.mem_reverse] at h
    cases atLeastOne with
    | false =>
      obtain ⟨read, hpasses, hall, hnamed⟩ := spans_passes h
      exact ⟨read, hpasses, fits_set (fun _ => rfl) rfl rfl rfl hall, fun _ => hnamed⟩
    | true =>
      obtain ⟨c, tail, hrest, hc, hmem⟩ := mem_drop_spans h
      obtain ⟨read, hpasses, hall, hnamed⟩ := spans_passes hmem
      refine ⟨c :: read, (passes_next hrest _).trans hpasses, ?_, fun _ => hnamed⟩
      exact fits_set (by simp) rfl rfl rfl (List.forall_mem_cons.mpr ⟨hc, hall⟩)
  | seq p q ihp ihq =>
    simp only [readings, List.mem_flatMap] at h
    obtain ⟨r'', hp, hq⟩ := h
    obtain ⟨read, hpasses, hfits, hnamed⟩ := ihp hp
    obtain ⟨more, hpasses', hfits', hnamed'⟩ := ihq hq
    refine ⟨read ++ more, hpasses.trans hpasses', hfits.seq hfits', fun hu => ?_⟩
    simp only [unnamed, Bool.and_eq_true] at hu
    exact (hnamed' hu.2).trans (hnamed hu.1)
  | alt p q ihp ihq =>
    simp only [readings, List.mem_append] at h
    simp only [unnamed, Bool.and_eq_true]
    rcases h with h | h
    · obtain ⟨read, hpasses, hfits, hnamed⟩ := ihp h
      refine ⟨read, hpasses, ⟨?_, ?_, ?_, ?_⟩, fun hu => hnamed hu.1⟩
      · exact fun hnil => by simp [mayBeEmpty, hfits.empty hnil]
      · exact fun c hc => among_append.mpr (Or.inl (hfits.first c hc))
      · exact fun c hc => among_append.mpr (Or.inl (hfits.last c hc))
      · exact fun c hc => among_append.mpr (Or.inl (hfits.all c hc))
    · obtain ⟨read, hpasses, hfits, hnamed⟩ := ihq h
      refine ⟨read, hpasses, ⟨?_, ?_, ?_, ?_⟩, fun hu => hnamed hu.2⟩
      · exact fun hnil => by simp [mayBeEmpty, hfits.empty hnil]
      · exact fun c hc => among_append.mpr (Or.inr (hfits.first c hc))
      · exact fun c hc => among_append.mpr (Or.inr (hfits.last c hc))
      · exact fun c hc => among_append.mpr (Or.inr (hfits.all c hc))
  | optional p ih =>
    simp only [readings, List.mem_append, List.mem_singleton] at h
    rcases h with h | rfl
    · obtain ⟨read, hpasses, hfits, hnamed⟩ := ih h
      exact ⟨read, hpasses, ⟨fun _ => rfl, hfits.first, hfits.last, hfits.all⟩, hnamed⟩
    · exact ⟨[], .refl _, fits_nil rfl, fun _ => rfl⟩
  | repeated p ih => exact iterate_fits (fun _ _ => ih) h
  | name p ih =>
    simp only [readings, List.mem_map] at h
    obtain ⟨r'', hp, rfl⟩ := h
    obtain ⟨read, hpasses, hfits, -⟩ := ih hp
    exact ⟨read, ⟨hpasses.rest, hpasses.prev⟩,
      ⟨hfits.empty, hfits.first, hfits.last, hfits.all⟩, by simp [unnamed]⟩

/-- Nothing is put back. -/
theorem readings_length (h : r' ∈ p.readings r) : r'.rest.length ≤ r.rest.length := by
  obtain ⟨read, hpasses, -⟩ := readings_fits h
  simp [hpasses.rest]

/-- What is read is empty, or begins with a character of the opening. -/
theorem readings_opening (h : r' ∈ p.readings r) :
    (p.mayBeEmpty = true ∧ r'.rest = r.rest) ∨ r.Opens p.opening := by
  obtain ⟨read, hpasses, hfits, -⟩ := readings_fits h
  cases read with
  | nil => exact Or.inl ⟨hfits.empty rfl, hpasses.rest.symm⟩
  | cons c read => exact Or.inr ⟨c, _, hpasses.rest, hfits.first c rfl⟩

end Fitting

section Extended

variable {more : List Char}

theorem atBoundary_extend (r : Reading) (hmore : ∀ c ∈ more.head?, isWordChar c = false) :
    (r.extend more).atBoundary = r.atBoundary := by
  obtain ⟨prev, rest, named⟩ := r
  cases rest with
  | cons c rest => rfl
  | nil =>
    cases more with
    | nil => rfl
    | cons c more =>
      have hc : isWordChar c = false := hmore c rfl
      simp [extend, Reading.atBoundary, hc]

theorem iterate_extend {body : Reading → List Reading} {fuel fuel' : Nat} (more : List Char)
    (hbody : ∀ r r', r' ∈ body r → r'.extend more ∈ body (r.extend more)) (hle : fuel ≤ fuel')
    (h : r' ∈ readings.iterate body fuel r) :
    r'.extend more ∈ readings.iterate body fuel' (r.extend more) := by
  induction fuel generalizing r fuel' with
  | zero =>
    simp only [readings.iterate, List.mem_singleton] at h
    rw [h]
    exact self_mem_iterate ..
  | succ fuel ih =>
    rcases mem_iterate h with rfl | ⟨_, r'', hfuel, hmem, hshort, hnext⟩
    · exact self_mem_iterate ..
    · cases hfuel
      cases fuel' with
      | zero => exact absurd hle (Nat.not_succ_le_zero _)
      | succ fuel' =>
        have hshort' : (r''.extend more).rest.length < (r.extend more).rest.length := by
          simpa [extend] using hshort
        simp only [readings.iterate, List.mem_append, List.mem_flatMap, List.mem_filter,
          decide_eq_true_eq]
        exact Or.inl ⟨_, ⟨hbody r r'' hmem, hshort'⟩, ih (Nat.le_of_succ_le_succ hle) hnext⟩

/-- What is read is read as well when more stands behind it. -/
theorem readings_extend (hmore : ∀ c ∈ more.head?, isWordChar c = false)
    (hp : p.looksNoFurther = true) (h : r' ∈ p.readings r) :
    r'.extend more ∈ p.readings (r.extend more) := by
  induction p generalizing r r' with
  | start =>
    simp only [readings] at h ⊢
    split at h
    · rename_i hstart
      cases List.mem_singleton.mp h
      rw [if_pos (by simpa [extend] using hstart)]
      exact List.mem_singleton_self _
    · simp at h
  | boundary =>
    simp only [readings] at h ⊢
    rw [atBoundary_extend r hmore]
    split at h
    · rename_i hboundary
      cases List.mem_singleton.mp h
      rw [if_pos hboundary]
      exact List.mem_singleton_self _
    · simp at h
  | text word =>
    simp only [readings, Option.mem_toList] at h ⊢
    exact skipWord_extend more h
  | one k =>
    simp only [readings] at h
    split at h
    · rename_i c rest hrest
      split at h
      · rename_i hc
        cases List.mem_singleton.mp h
        simp [readings, extend, hrest, hc]
      · simp at h
    · simp at h
  | many k atLeastOne =>
    simp only [readings, List.mem_reverse] at h ⊢
    cases atLeastOne with
    | false => exact spans_extend more h
    | true =>
      obtain ⟨c, tail, hrest, hc, hmem⟩ := mem_drop_spans h
      simpa [extend, hrest, spans, hc] using spans_extend more hmem
  | seq p q ihp ihq =>
    simp only [looksNoFurther, Bool.and_eq_true] at hp
    simp only [readings, List.mem_flatMap] at h ⊢
    obtain ⟨r'', hfirst, hsecond⟩ := h
    exact ⟨_, ihp hp.1 hfirst, ihq hp.2 hsecond⟩
  | alt p q ihp ihq =>
    simp only [looksNoFurther, Bool.and_eq_true] at hp
    simp only [readings, List.mem_append] at h ⊢
    exact h.imp (ihp hp.1) (ihq hp.2)
  | optional p ih =>
    simp only [readings, List.mem_append, List.mem_singleton] at h ⊢
    rcases h with h | rfl
    · exact Or.inl (ih hp h)
    · exact Or.inr rfl
  | repeated p ih =>
    refine iterate_extend more (fun r r' hmem => ih hp hmem) ?_ h
    simp [extend]
  | name p ih =>
    simp only [readings, List.mem_map] at h ⊢
    obtain ⟨r'', hmem, rfl⟩ := h
    refine ⟨_, ih hp hmem, ?_⟩
    have hle := readings_length hmem
    have htake : (r.rest ++ more).take (r.rest.length - r''.rest.length) =
        r.rest.take (r.rest.length - r''.rest.length) :=
      List.take_append_of_le_length (by omega)
    simp [extend, htake, Nat.add_sub_add_right]
  | notNext p ih => cases hp

end Extended

theorem matches_iff (p : Pattern) (line : String) :
    p.matches_ line = true ↔ ∃ r, r ∈ p.readings (.atStart line.toList) := by
  rw [matches_, read?, List.isSome_head?]
  exact ⟨List.exists_mem_of_ne_nil _, fun ⟨r, hr⟩ => List.ne_nil_of_mem hr⟩

theorem matches_append {line more : String} (hp : p.looksNoFurther = true)
    (hmore : ∀ c ∈ more.toList.head?, isWordChar c = false) (h : p.matches_ line = true) :
    p.matches_ (line ++ more) = true := by
  rw [matches_iff] at h ⊢
  obtain ⟨r, hr⟩ := h
  refine ⟨r.extend more.toList, ?_⟩
  rw [String.toList_append]
  exact readings_extend hmore hp hr

theorem matches_opening {line : String} (hp : p.mayBeEmpty = false) (h : p.matches_ line = true) :
    ∃ c rest, line.toList = c :: rest ∧ ∃ k ∈ p.opening, k.holds c = true := by
  obtain ⟨r, hr⟩ := (matches_iff p line).mp h
  rcases readings_opening hr with ⟨hempty, -⟩ | hopens
  · rw [hp] at hempty
    cases hempty
  · exact hopens

end Pattern

namespace Language

variable {d : Descriptor} {line : String}

def isLatin (c : Char) : Bool :=
  isAsciiLetter c || c == '_'

def isLatinSet (k : CharSet) : Bool :=
  !k.negated && k.items.all fun
    | .single c => isLatin c
    | .range low high => ('A' ≤ low && high ≤ 'Z') || ('a' ≤ low && high ≤ 'z')
    | .word | .blank => false

theorem isLatin_of_isLatinSet {k : CharSet} {c : Char} (hk : isLatinSet k = true)
    (hc : k.holds c = true) : isLatin c = true := by
  simp only [isLatinSet, Bool.and_eq_true, Bool.not_eq_true', List.all_eq_true] at hk
  obtain ⟨hplain, hitems⟩ := hk
  have hany : k.items.any (SetItem.holds c) = true := by
    simpa [CharSet.holds, hplain] using hc
  obtain ⟨item, hitem, hholds⟩ := List.any_eq_true.mp hany
  have hlatin := hitems item hitem
  cases item with
  | single x =>
    obtain rfl : c = x := by simpa [SetItem.holds] using hholds
    exact hlatin
  | range low high =>
    simp only [SetItem.holds, Bool.and_eq_true, Bool.or_eq_true, decide_eq_true_eq] at hholds hlatin
    simp only [isLatin, isAsciiLetter, Bool.or_eq_true, Bool.and_eq_true, decide_eq_true_eq]
    rcases hlatin with ⟨hlow, hhigh⟩ | ⟨hlow, hhigh⟩
    · exact Or.inl (Or.inr ⟨hlow.trans hholds.1, hholds.2.trans hhigh⟩)
    · exact Or.inl (Or.inl ⟨hlow.trans hholds.1, hholds.2.trans hhigh⟩)
  | word => cases hlatin
  | blank => cases hlatin

/-- A line that defines a name begins with a letter or an underscore. -/
theorem definedName?_latin (hd : d ∈ builtIn) {name : String}
    (h : d.definedName? line = some name) :
    ∃ c rest, line.toList = c :: rest ∧ isLatin c = true := by
  have hopenings : ∀ d ∈ builtIn, ∀ p ∈ d.definitionPatterns, p.mayBeEmpty = false ∧
      ∀ k ∈ p.opening, isLatinSet k = true := by decide
  unfold Descriptor.definedName? at h
  split at h
  · rename_i p hp
    have hmem := List.mem_of_find?_eq_some hp
    have hmatches := List.find?_some hp
    obtain ⟨hempty, hlatin⟩ := hopenings d hd p hmem
    obtain ⟨c, rest, hrest, k, hk, hc⟩ := Pattern.matches_opening hempty hmatches
    exact ⟨c, rest, hrest, isLatin_of_isLatinSet (hlatin k hk) hc⟩
  · cases h

/-- An import stays one when something other than a word is put behind it. -/
theorem isImport_append (hd : d ∈ builtIn) {more : String}
    (hmore : ∀ c ∈ more.toList.head?, isWordChar c = false) (h : d.isImport line = true) :
    d.isImport (line ++ more) = true := by
  have hpatterns : ∀ d ∈ builtIn, ∀ p ∈ d.importPatterns, p.looksNoFurther = true := by
    decide
  unfold Descriptor.isImport at h ⊢
  obtain ⟨p, hp, hmatches⟩ := List.any_eq_true.mp h
  exact List.any_eq_true.mpr ⟨p, hp, Pattern.matches_append (hpatterns d hd p hp) hmore hmatches⟩

end Language

end SnippetRunner
