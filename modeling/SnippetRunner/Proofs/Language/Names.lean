import Mathlib.Data.List.Basic
import SnippetRunner.Proofs.Language.Readings
import SnippetRunner.Source.Literal

/-!
Where the name stands in a line that defines one. A pattern with a named part is read up to that
part, then through it, then behind it. In the patterns of the languages a name begins the line or
stands behind a blank, nothing before its end quotes or begins a comment, and the name is not cut
short: no further character of a word stands behind it.
-/
namespace SnippetRunner

open Text Source

namespace Pattern

def parts : Pattern → Option (Pattern × Pattern × Pattern)
  | .name p => some (.text "", p, .text "")
  | .seq p q =>
    match p.parts with
    | some (front, body, back) => some (front, body, .seq back q)
    | none => q.parts.map fun (front, body, back) => (.seq p front, body, back)
  | _ => none

/-- The place right behind the name on the preferred way of reading a line. -/
def behindName? (p : Pattern) (line : String) : Option Reading :=
  match p.parts with
  | none => none
  | some (front, body, back) =>
    ((front.readings (.atStart line.toList)).flatMap (Pattern.name body).readings).find?
      fun r => !(back.readings r).isEmpty

def lastRun? : Pattern → Option CharSet
  | .many k _ => some k
  | .seq _ q => q.lastRun?
  | .name p => p.lastRun?
  | _ => none

end Pattern

/-- The place right behind the name that a line defines. -/
def Descriptor.behindName? (d : Descriptor) (line : String) : Option Reading :=
  match d.definitionPatterns.find? fun p => p.matches_ line with
  | some p => p.behindName? line
  | none => none

namespace Language

def marks : List Char :=
  ['"', '\'', '#', '/']

def isNameSet (starting : Bool) (k : CharSet) : Bool :=
  !k.negated && k.items.all fun item =>
    isLatinSet ⟨false, [item]⟩ || item == .single '$' || (!starting && item == .word)

def isApartSet (k : CharSet) : Bool :=
  !k.negated && k.items.all fun
    | .single c => !isWordChar c
    | .range _ _ | .word => false
    | .blank => true

structure NamedAt (line before name after : List Char) : Prop where
  line_eq : line = before ++ name ++ after
  blank : ∀ c ∈ before.getLast?, isBlank c = true
  plain : ∀ c ∈ before ++ name, c ∉ marks
  nonempty : name ≠ []
  characters : ∀ c ∈ name, isNameChar c = true
  ends : ∀ c ∈ after.head?, isWordChar c = false

/-- The parts of a pattern for which names stand in such places. -/
structure Delimits (p front body back : Pattern) : Prop where
  parts : p.parts = some (front, body, back)
  blank : ∀ k ∈ front.closing, k = ⟨false, [.blank]⟩
  plain : ∀ k ∈ front.alphabet ++ body.alphabet, ∀ c ∈ marks, k.holds c = false
  nonempty : body.mayBeEmpty = false
  characters : ∀ k ∈ body.alphabet, isNameSet false k = true
  unnamed : back.unnamed = true
  ends : (back.mayBeEmpty = false ∧ ∀ k ∈ back.opening, isApartSet k = true) ∨
    (back.alphabet = [] ∧ ∃ k ∈ p.lastRun?, k.negated = false ∧ .word ∈ k.items)

end Language

namespace Pattern

open Reading

variable {p front body back : Pattern} {line : String} {r r' : Reading}

theorem readings_empty (r : Reading) : (Pattern.text "").readings r = [r] :=
  rfl

/-- A pattern is read part by part. -/
theorem readings_parts (h : p.parts = some (front, body, back)) (r : Reading) :
    p.readings r =
      ((front.readings r).flatMap (Pattern.name body).readings).flatMap back.readings := by
  induction p generalizing front body back r with
  | name p =>
    cases h
    simp only [readings_empty, List.flatMap_singleton]
    exact (List.flatMap_singleton' _).symm
  | seq p q ihp ihq =>
    rw [parts] at h
    split at h
    · rename_i front' body' back' hparts
      cases h
      rw [readings, ihp hparts, List.flatMap_assoc]
      rfl
    · obtain ⟨⟨front', body', back'⟩, hparts, heq⟩ := Option.map_eq_some_iff.mp h
      cases heq
      simp only [readings, List.flatMap_assoc]
      refine List.flatMap_congr fun x hx => ?_
      rw [ihq hparts]
      simp only [readings, List.flatMap_assoc]
  | _ => cases h

theorem exists_find?_of_flatMap {α β : Type} {items : List α} {f : α → List β} {y : β}
    (h : (items.flatMap f).head? = some y) :
    ∃ x ∈ items, items.find? (fun x => !(f x).isEmpty) = some x ∧ (f x).head? = some y := by
  induction items with
  | nil => simp at h
  | cons x items ih =>
    rw [List.flatMap_cons] at h
    cases hx : f x with
    | nil =>
      rw [hx, List.nil_append] at h
      obtain ⟨x', hmem, hfind, hhead⟩ := ih h
      exact ⟨x', List.mem_cons_of_mem _ hmem, by simpa [hx] using hfind, hhead⟩
    | cons z zs =>
      rw [hx] at h
      exact ⟨x, List.mem_cons_self .., by simp [hx], by simpa [hx] using h⟩

theorem behindName?_of_read? (hparts : p.parts = some (front, body, back))
    (hr : p.read? line = some r) :
    ∃ r', p.behindName? line = some r' ∧ r ∈ back.readings r' ∧
      ∃ r₀ ∈ front.readings (.atStart line.toList), r' ∈ (Pattern.name body).readings r₀ := by
  rw [read?, readings_parts hparts] at hr
  obtain ⟨r', hmem, hfind, hhead⟩ := exists_find?_of_flatMap hr
  refine ⟨r', ?_, List.mem_of_mem_head? hhead, List.mem_flatMap.mp hmem⟩
  rw [behindName?, hparts]
  exact hfind

/-- What a named part reads becomes the name. -/
theorem readings_name (h : r' ∈ (Pattern.name p).readings r) :
    ∃ read, r.Passes r' read ∧ p.Fits read ∧ r'.named = some read := by
  simp only [readings, List.mem_map] at h
  obtain ⟨r'', hp, rfl⟩ := h
  obtain ⟨read, hpasses, hfits, -⟩ := readings_fits hp
  refine ⟨read, ⟨hpasses.rest, hpasses.prev⟩, hfits, ?_⟩
  simp [hpasses.rest]

theorem last_spans {k : CharSet} {named : Option (List Char)} {prev : Option Char}
    {rest : List Char} (h : (spans k named prev rest).getLast? = some r) :
    ∀ c ∈ r.rest.head?, k.holds c = false := by
  induction rest generalizing prev with
  | nil =>
    cases h
    simp
  | cons c rest ih =>
    by_cases hc : k.holds c = true
    · obtain ⟨others, hothers⟩ := spans_eq_cons k named (some c) rest
      rw [spans, if_pos hc, hothers, List.getLast?_cons_cons, ← hothers] at h
      exact ih h
    · rw [spans, if_neg hc] at h
      cases h
      simpa using hc

/-- The preferred way of reading does not stop within the last run. -/
theorem lastRun_ends {k : CharSet} (h : (p.readings r).head? = some r')
    (hlast : p.lastRun? = some k) : ∀ c ∈ r'.rest.head?, k.holds c = false := by
  induction p generalizing r r' with
  | many k' atLeastOne =>
    cases hlast
    simp only [readings, List.head?_reverse] at h
    split at h
    · rw [List.getLast?_drop] at h
      split at h
      · cases h
      · exact last_spans h
    · exact last_spans h
  | seq p q ihp ihq =>
    rw [readings] at h
    obtain ⟨x, -, -, hhead⟩ := exists_find?_of_flatMap h
    exact ihq hhead hlast
  | name p ih =>
    rw [readings, List.head?_map, Option.map_eq_some_iff] at h
    obtain ⟨r'', hhead, rfl⟩ := h
    have hbody := ih hhead hlast
    exact hbody
  | _ => cases hlast

end Pattern

namespace Language

section Sets

variable {k : CharSet} {c : Char}

theorem holds_of_plain (hplain : k.negated = false) :
    k.holds c = true ↔ ∃ item ∈ k.items, item.holds c = true := by
  simp [CharSet.holds, hplain]

theorem isWordChar_of_isLatin (h : isLatin c = true) : isWordChar c = true := by
  have hascii : isAsciiLetter c = true → c.toNat < 128 := by
    intro hletter
    simp only [isAsciiLetter, Bool.or_eq_true, Bool.and_eq_true, decide_eq_true_eq] at hletter
    rcases hletter with ⟨-, hhigh⟩ | ⟨-, hhigh⟩
    · exact lt_of_le_of_lt (show c.toNat ≤ 122 from hhigh) (by decide)
    · exact lt_of_le_of_lt (show c.toNat ≤ 90 from hhigh) (by decide)
  rw [isLatin, Bool.or_eq_true] at h
  rcases h with hletter | hmark
  · simp [isWordChar, isAlphanumeric, hascii hletter, hletter]
  · simp [isWordChar, hmark]

/-- The characters that a name may start with may go on in it. -/
theorem isNameChar_of_isNameStart (h : isNameStart c = true) : isNameChar c = true := by
  rw [isNameStart, Bool.or_eq_true] at h
  rw [isNameChar, Bool.or_eq_true]
  exact h.imp_left isWordChar_of_isLatin

theorem isNameChar_of_isBlank (h : isBlank c = true) : isNameChar c = false := by
  have hcodes : ∀ n ∈ [9, 10, 11, 12, 13, 28, 29, 30, 31, 32, 0x85, 0xA0, 0x1680, 0x2000, 0x2001,
      0x2002, 0x2003, 0x2004, 0x2005, 0x2006, 0x2007, 0x2008, 0x2009, 0x200A, 0x2028, 0x2029,
      0x202F, 0x205F, 0x3000], isNameChar (Char.ofNat n) = false := by decide +kernel
  rw [← Char.ofNat_toNat c]
  apply hcodes
  simp only [isBlank, Bool.or_eq_true, Bool.and_eq_true, decide_eq_true_eq, beq_iff_eq] at h
  simp only [List.mem_cons, List.not_mem_nil, or_false]
  omega

theorem isNameStart_or_word {starting : Bool} (hk : isNameSet starting k = true)
    (hc : k.holds c = true) :
    isNameStart c = true ∨ (starting = false ∧ isWordChar c = true) := by
  simp only [isNameSet, Bool.and_eq_true, Bool.not_eq_true', List.all_eq_true, Bool.or_eq_true,
    beq_iff_eq] at hk
  obtain ⟨item, hitem, hholds⟩ := (holds_of_plain hk.1).mp hc
  rcases hk.2 item hitem with (hlatin | rfl) | ⟨hword, rfl⟩
  · have hset : CharSet.holds ⟨false, [item]⟩ c = true := by simp [CharSet.holds, hholds]
    have hstart := isLatin_of_isLatinSet hlatin hset
    rw [isLatin, Bool.or_eq_true] at hstart
    left
    simpa [isNameStart] using Or.inl hstart
  · obtain rfl : c = '$' := by simpa [SetItem.holds] using hholds
    exact Or.inl (by decide)
  · exact Or.inr ⟨hword, hholds⟩

theorem isNameChar_of_isNameSet (hk : isNameSet false k = true) (hc : k.holds c = true) :
    isNameChar c = true := by
  rcases isNameStart_or_word hk hc with hstart | ⟨-, hword⟩
  · exact isNameChar_of_isNameStart hstart
  · rw [isNameChar, hword, Bool.true_or]

theorem isNameStart_of_isNameSet (hk : isNameSet true k = true) (hc : k.holds c = true) :
    isNameStart c = true :=
  (isNameStart_or_word hk hc).resolve_right (by simp)

theorem not_isWordChar_of_isBlank (h : isBlank c = true) : isWordChar c = false := by
  have hname := isNameChar_of_isBlank h
  rw [isNameChar, Bool.or_eq_false_iff] at hname
  exact hname.1

theorem not_isWordChar_of_isApartSet (hk : isApartSet k = true) (hc : k.holds c = true) :
    isWordChar c = false := by
  simp only [isApartSet, Bool.and_eq_true, Bool.not_eq_true', List.all_eq_true] at hk
  obtain ⟨item, hitem, hholds⟩ := (holds_of_plain hk.1).mp hc
  have hapart := hk.2 item hitem
  cases item with
  | single x =>
    obtain rfl : c = x := by simpa [SetItem.holds] using hholds
    simpa using hapart
  | blank => exact not_isWordChar_of_isBlank hholds
  | range low high => cases hapart
  | word => cases hapart

end Sets

section Places

variable {p front body back : Pattern} {line name : String}

/-- A word that runs as far as it can is not cut short. -/
theorem ends_of_lastRun {k : CharSet} {r r' : Reading} (hr : (p.readings r).head? = some r')
    (hk : p.lastRun? = some k) (hplain : k.negated = false) (hword : .word ∈ k.items) :
    ∀ c ∈ r'.rest.head?, isWordChar c = false := by
  intro c hc
  have hout := Pattern.lastRun_ends hr hk c hc
  rw [← Bool.not_eq_true, holds_of_plain hplain] at hout
  rw [← Bool.not_eq_true]
  exact fun hin => hout ⟨_, hword, hin⟩

/-- Behind the name something must follow that is of no word, or the name runs as far as it can. -/
theorem Delimits.word_ends {r r' : Reading} {tail : List Char}
    (h : Delimits p front body back) (hread : p.read? line = some r) (hpasses : r'.Passes r tail)
    (hfits : back.Fits tail) : ∀ c ∈ r'.rest.head?, isWordChar c = false := by
  rcases h.ends with ⟨hempty, hopening⟩ | ⟨hnone, k, hk, hplain, hword⟩
  · cases tail with
    | nil =>
      rw [hfits.empty rfl] at hempty
      cases hempty
    | cons c tail =>
      obtain ⟨k, hk, hholds⟩ := hfits.first c rfl
      rw [hpasses.rest]
      simpa using not_isWordChar_of_isApartSet (hopening k hk) hholds
  · have htail : tail = [] := by
      refine List.eq_nil_iff_forall_not_mem.mpr fun c hc => ?_
      obtain ⟨k, hk, -⟩ := hfits.all c hc
      simp [hnone] at hk
    rw [hpasses.rest, htail, List.nil_append]
    exact ends_of_lastRun hread hk hplain hword

/-- The name is what the named part of the pattern reads, and the line is cut there. -/
theorem Delimits.namedAt (h : Delimits p front body back) (hname : p.name? line = some name) :
    ∃ r before, p.behindName? line = some r ∧ r.named = some name.toList ∧
      NamedAt line.toList before name.toList r.rest ∧
      ∀ c ∈ name.toList.head?, Pattern.Among body.opening c := by
  simp only [Pattern.name?, Option.bind_eq_bind, Option.bind_eq_some_iff, Option.pure_def,
    Option.some.injEq] at hname
  obtain ⟨r, hread, chars, hchars, rfl⟩ := hname
  obtain ⟨r', hbehind, hback, r₀, hfront, hbody⟩ := Pattern.behindName?_of_read? h.parts hread
  obtain ⟨before, hbefore, hfront, -⟩ := Pattern.readings_fits hfront
  obtain ⟨read, hread', hbody, hnamed⟩ := Pattern.readings_name hbody
  obtain ⟨tail, htail, hback, hkept⟩ := Pattern.readings_fits hback
  -- The part behind names nothing, so the name is still what the named part read.
  obtain rfl : read = chars := by
    rw [hkept h.unnamed, hnamed] at hchars
    exact Option.some.inj hchars
  simp only [String.toList_ofList]
  refine ⟨r', before, hbehind, hnamed, ⟨?_, ?_, ?_, ?_, ?_, ?_⟩, hbody.first⟩
  · rw [List.append_assoc, ← hread'.rest]
    exact hbefore.rest
  · intro c hc
    obtain ⟨k, hk, hholds⟩ := hfront.last c hc
    rw [h.blank k hk] at hholds
    simpa [CharSet.holds, SetItem.holds] using hholds
  · intro c hc hmark
    have hamong : Pattern.Among (front.alphabet ++ body.alphabet) c :=
      Pattern.among_append.mpr ((List.mem_append.mp hc).imp (hfront.all c) (hbody.all c))
    obtain ⟨k, hk, hholds⟩ := hamong
    rw [h.plain k hk c hmark] at hholds
    cases hholds
  · intro hnil
    have hempty := hbody.empty hnil
    rw [h.nonempty] at hempty
    cases hempty
  · intro c hc
    obtain ⟨k, hk, hholds⟩ := hbody.all c hc
    exact isNameChar_of_isNameSet (h.characters k hk) hholds
  · exact h.word_ends hread htail hback

theorem delimits_builtIn {d : Descriptor} (hd : d ∈ builtIn) (hp : p ∈ d.definitionPatterns) :
    ∃ front body back, Delimits p front body back ∧
      (d ≠ java → ∀ k ∈ body.opening, isNameSet true k = true) := by
  have hparts : ∀ d ∈ builtIn, ∀ p ∈ d.definitionPatterns, p.parts.isSome = true := by
    decide
  have hblank : ∀ d ∈ builtIn, ∀ p ∈ d.definitionPatterns, ∀ parts ∈ p.parts,
      ∀ k ∈ parts.1.closing, k = ⟨false, [.blank]⟩ := by
    decide
  have hplain : ∀ d ∈ builtIn, ∀ p ∈ d.definitionPatterns, ∀ parts ∈ p.parts,
      ((parts.1.alphabet ++ parts.2.1.alphabet).all fun k => marks.all (!k.holds ·)) = true := by
    decide
  have hbody : ∀ d ∈ builtIn, ∀ p ∈ d.definitionPatterns, ∀ parts ∈ p.parts,
      parts.2.1.mayBeEmpty = false ∧ (∀ k ∈ parts.2.1.alphabet, isNameSet false k = true) ∧
      (d ≠ java → ∀ k ∈ parts.2.1.opening, isNameSet true k = true) := by
    decide
  have hback : ∀ d ∈ builtIn, ∀ p ∈ d.definitionPatterns, ∀ parts ∈ p.parts,
      parts.2.2.unnamed = true ∧
      ((parts.2.2.mayBeEmpty = false ∧ ∀ k ∈ parts.2.2.opening, isApartSet k = true) ∨
        (parts.2.2.alphabet = [] ∧ ∃ k ∈ p.lastRun?, k.negated = false ∧ .word ∈ k.items)) := by
    decide
  obtain ⟨⟨front, body, back⟩, hsome⟩ := Option.isSome_iff_exists.mp (hparts d hd p hp)
  have hplain := hplain d hd p hp _ hsome
  simp only [List.all_eq_true, Bool.not_eq_true'] at hplain
  obtain ⟨hnonempty, hcharacters, hopening⟩ := hbody d hd p hp _ hsome
  obtain ⟨hunnamed, hends⟩ := hback d hd p hp _ hsome
  exact ⟨front, body, back,
    ⟨hsome, hblank d hd p hp _ hsome, hplain, hnonempty, hcharacters, hunnamed, hends⟩, hopening⟩

end Places

end Language

end SnippetRunner
