import Mathlib.Data.List.Induction
import Mathlib.Data.List.TakeWhile
import Mathlib.Tactic.FinCases
import SnippetRunner.Proofs.Success
import SnippetRunner.Proofs.Text.PathNames
import SnippetRunner.Settings

/-!
Replacements as they are written in a setting. Names and paths with an equals sign between them
are read back as they were given, whatever blanks stand around them and however many empty entries
between them, and of two entries with one name the later counts. Any other entry is refused.
-/
namespace SnippetRunner.Settings

open Text

def Blank (text : String) : Prop :=
  ∀ c ∈ text.toList, isBlank c = true

structure Part (text : String) : Prop where
  first : ∃ c ∈ text.toList.head?, isBlank c = false
  last : ∃ c ∈ text.toList.getLast?, isBlank c = false
  noComma : ',' ∉ text.toList

inductive SpellsPair (name path : String) : String → Prop
  | padded {a b c d : String} : Part name → '=' ∉ name.toList → Part path →
      Blank a → Blank b → Blank c → Blank d →
      SpellsPair name path (a ++ name ++ b ++ "=" ++ (c ++ path ++ d))

/-- Entries spell some pairs one after the other, with blank entries anywhere between them. -/
inductive Spells : List (String × String) → List String → Prop
  | nil : Spells [] []
  | blank {pairs : List (String × String)} {item : String} {items : List String} :
      Blank item → Spells pairs items → Spells pairs (item :: items)
  | pair {pairs : List (String × String)} {name path item : String} {items : List String} :
      SpellsPair name path item → Spells pairs items →
      Spells ((name, path) :: pairs) (item :: items)

/-- The entries of a text, which stand between its commas. -/
structure Entries (value : String) (items : List String) : Prop where
  nonempty : items ≠ []
  noComma : ∀ item ∈ items, ',' ∉ item.toList
  joined : value = ",".intercalate items

/-- An entry that is not blank and has no equals sign, or nothing but blanks before or behind the
first one. -/
def Malformed (item : String) : Prop :=
  ¬ Blank item ∧ ('=' ∉ item.toList ∨
    ∃ name path, item = name ++ "=" ++ path ∧ '=' ∉ name.toList ∧ (Blank name ∨ Blank path))

section Trimmed

variable {a d name : String}

theorem strip_eq_empty_iff {text : String} : strip text = "" ↔ Blank text := by
  have hempty : strip text = "" ↔ trim isBlank text.toList = [] := by
    rw [← String.toList_inj, strip, String.toList_ofList]
    rfl
  rw [hempty, trim, trimRight, trimLeft, List.reverse_eq_nil_iff, List.dropWhile_eq_nil_iff]
  constructor
  · intro h c hc
    by_contra hblank
    -- what is left over starts with a character that is no blank
    have hne : text.toList.dropWhile isBlank ≠ [] := by
      rw [Ne, List.dropWhile_eq_nil_iff]
      exact fun hall => hblank (hall c hc)
    have hhead := List.head_dropWhile_not isBlank hne
    rw [h _ (List.mem_reverse.mpr (List.head_mem hne))] at hhead
    cases hhead
  · intro h c hc
    exact h c ((List.dropWhile_sublist _).subset (List.mem_reverse.mp hc))

theorem isBlankText_iff {text : String} : isBlankText text = true ↔ Blank text := by
  rw [isBlankText, beq_iff_eq, strip_eq_empty_iff]

theorem dropWhile_padded {pad cs rest : List Char} (hpad : ∀ c ∈ pad, isBlank c = true)
    (hcs : ∃ c ∈ cs.head?, isBlank c = false) :
    (pad ++ cs ++ rest).dropWhile isBlank = cs ++ rest := by
  obtain ⟨c, hc, hfirst⟩ := hcs
  obtain ⟨tail, rfl⟩ := List.head?_eq_some_iff.mp hc
  rw [List.append_assoc, List.dropWhile_append_of_pos hpad, List.cons_append,
    List.dropWhile_cons_of_neg (by simp [hfirst])]

/-- Blanks around something that has none at its ends are taken away. -/
theorem strip_padded (ha : Blank a) (hname : Part name) (hd : Blank d) :
    strip (a ++ name ++ d) = name := by
  have hback : ∃ c ∈ name.toList.reverse.head?, isBlank c = false := by
    rw [List.head?_reverse]
    exact hname.last
  have hleft : (a.toList ++ name.toList ++ d.toList).dropWhile isBlank =
      name.toList ++ d.toList := dropWhile_padded ha hname.first
  have hright : (d.toList.reverse ++ name.toList.reverse ++ []).dropWhile isBlank =
      name.toList.reverse ++ [] :=
    dropWhile_padded (fun c hc => hd c (List.mem_reverse.mp hc)) hback
  rw [List.append_nil, List.append_nil, ← List.reverse_append] at hright
  rw [strip, String.toList_append, String.toList_append, trim, trimLeft, hleft, trimRight, hright,
    List.reverse_reverse, String.ofList_toList]

theorem Blank.not_mem {c : Char} (h : Blank a) (hc : isBlank c = false) : c ∉ a.toList := by
  intro hmem
  rw [h c hmem] at hc
  cases hc

theorem Part.ne_empty (h : Part name) : name ≠ "" := by
  rintro rfl
  obtain ⟨c, hc, -⟩ := h.first
  simp at hc

end Trimmed

section Entry

variable {name path item front back : String}

theorem cutAt_eq_none {sep : Char} {text : String} (h : sep ∉ text.toList) :
    cutAt sep text = none := by
  have hall : text.toList.dropWhile (· != sep) = [] := by
    rw [List.dropWhile_eq_nil_iff]
    intro c hc
    simpa using ne_of_mem_of_not_mem hc h
  rw [cutAt, hall]

theorem cutAt_append (h : '=' ∉ front.toList) :
    cutAt '=' (front ++ "=" ++ back) = some (front, back) := by
  have hfront : ∀ c ∈ front.toList, (c != '=') = true := by
    intro c hc
    simpa using ne_of_mem_of_not_mem hc h
  have hchars : (front ++ "=" ++ back).toList = front.toList ++ '=' :: back.toList := by simp
  simp only [cutAt, hchars, List.dropWhile_append_of_pos hfront,
    List.takeWhile_append_of_pos hfront]
  simp

/-- The first equals sign of an entry cuts it in two. -/
theorem exists_cut (h : '=' ∈ item.toList) :
    ∃ front back, item = front ++ "=" ++ back ∧ '=' ∉ front.toList := by
  obtain ⟨before, after, hsplit, hbefore⟩ := List.eq_append_cons_of_mem h
  exact ⟨String.ofList before, String.ofList after, by
    rw [← String.toList_inj, hsplit]; simp, by simpa using hbefore⟩

/-- An entry that spells a pair is read as this pair. -/
theorem SpellsPair.parsed (h : SpellsPair name path item) : parsePair item = .ok (name, path) := by
  obtain ⟨hname, hsign, hpath, ha, hb, hc, hd⟩ := h
  rename_i a b c d
  have heq : isBlank '=' = false := by decide
  have hfront : '=' ∉ (a ++ name ++ b).toList := by
    simp [hsign, ha.not_mem heq, hb.not_mem heq]
  simp only [parsePair, cutAt_append hfront, strip_padded ha hname hb, strip_padded hc hpath hd]
  simp [hname.ne_empty, hpath.ne_empty]

theorem SpellsPair.not_blank (h : SpellsPair name path item) : ¬ Blank item := by
  obtain ⟨-, -, -, -, -, -, -⟩ := h
  intro hblank
  exact hblank.not_mem (show isBlank '=' = false by decide) (by simp)

theorem SpellsPair.noComma (h : SpellsPair name path item) : ',' ∉ item.toList := by
  obtain ⟨hname, -, hpath, ha, hb, hc, hd⟩ := h
  have hcomma : isBlank ',' = false := by decide
  simp [hname.noComma, hpath.noComma, ha.not_mem hcomma, hb.not_mem hcomma, hc.not_mem hcomma,
    hd.not_mem hcomma]

/-- An entry that is not blank is refused just if it is malformed, and then as it stands. -/
theorem parsePair_eq_error {fault : SettingFault} (hitem : ¬ Blank item) :
    parsePair item = .error fault ↔ Malformed item ∧ fault = .badPair item := by
  by_cases hsign : '=' ∈ item.toList
  · obtain ⟨front, back, rfl, hfront⟩ := exists_cut hsign
    have hmalformed : Malformed (front ++ "=" ++ back) ↔ Blank front ∨ Blank back := by
      constructor
      · rintro ⟨-, hnone | ⟨name, path, heq, hname, hblank⟩⟩
        · exact absurd hsign hnone
        · have hcut : cutAt '=' (front ++ "=" ++ back) = some (front, back) := cutAt_append hfront
          rw [heq, cutAt_append hname] at hcut
          cases hcut
          exact hblank
      · exact fun hblank => ⟨hitem, Or.inr ⟨front, back, rfl, hfront, hblank⟩⟩
    simp only [parsePair, cutAt_append hfront, hmalformed]
    split
    · rename_i hblank
      rw [Bool.or_eq_true, beq_iff_eq, beq_iff_eq, strip_eq_empty_iff, strip_eq_empty_iff] at hblank
      simp [hblank, eq_comm]
    · rename_i hnot
      rw [Bool.or_eq_true, beq_iff_eq, beq_iff_eq, strip_eq_empty_iff, strip_eq_empty_iff] at hnot
      simp [hnot]
  · have hmalformed : Malformed item := ⟨hitem, Or.inl hsign⟩
    simp [parsePair, cutAt_eq_none hsign, hmalformed, eq_comm]

theorem SpellsPair.not_malformed (h : SpellsPair name path item) : ¬ Malformed item := by
  intro hbad
  cases h.parsed.symm.trans ((parsePair_eq_error h.not_blank).mpr ⟨hbad, rfl⟩)

end Entry

section Assigned

variable {name value : String} {pairs : List (String × String)}

theorem lookup_assign (env : Environment) (name value other : String) :
    (env.assign name value).lookup other =
      if other = name then some value else env.lookup other := by
  have hmap : ∀ l : Environment, (l.map fun e => if e.1 == name then (name, value) else e).lookup
      other = if other = name ∧ l.any (·.1 == name) = true then some value
        else l.lookup other := by
    intro l
    induction l with
    | nil => simp
    | cons e l ih =>
      obtain ⟨key, old⟩ := e
      rw [List.map_cons]
      grind
  rw [Environment.assign]
  split
  · rename_i hany
    rw [hmap, hany]
    simp
  · rename_i hnone
    rw [List.lookup_append, List.lookup_cons]
    grind

/-- The names stay where they are, and one that is new comes last. -/
theorem names_assign (env : Environment) (name value : String) :
    (env.assign name value).map (·.1) =
      if name ∈ env.map (·.1) then env.map (·.1) else env.map (·.1) ++ [name] := by
  have hany : env.any (·.1 == name) = true ↔ name ∈ env.map (·.1) := by
    simp
  rw [Environment.assign]
  by_cases hname : name ∈ env.map (·.1)
  · rw [if_pos hname, if_pos (hany.mpr hname), List.map_map]
    refine List.map_congr_left fun e _ => ?_
    by_cases he : e.1 = name <;> simp [he]
  · rw [if_neg hname, if_neg fun h => hname (hany.mp h), List.map_append]
    rfl

def assignAll (pairs : List (String × String)) : Environment :=
  pairs.foldl (fun env pair => env.assign pair.1 pair.2) []

theorem assignAll_concat (pairs : List (String × String)) (pair : String × String) :
    assignAll (pairs ++ [pair]) = (assignAll pairs).assign pair.1 pair.2 := by
  rw [assignAll, List.foldl_append]
  rfl

/-- The last assignment to a name counts. -/
theorem lookup_assignAll (pairs : List (String × String)) (name : String) :
    (assignAll pairs).lookup name = pairs.reverse.lookup name := by
  induction pairs using List.reverseRecOn with
  | nil => rfl
  | append_singleton pairs pair ih =>
    rw [assignAll_concat, lookup_assign, ih, List.reverse_append, List.reverse_singleton,
      List.singleton_append, List.lookup_cons]
    grind

/-- Each name is there once, in the order in which they come first. -/
theorem names_assignAll (pairs : List (String × String)) :
    (assignAll pairs).map (·.1) = (pairs.map (·.1)).eraseDups := by
  induction pairs using List.reverseRecOn with
  | nil => rfl
  | append_singleton pairs pair ih =>
    rw [assignAll_concat, names_assign, ih, List.map_append, List.eraseDups_append,
      List.map_singleton, List.cons_removeAll]
    by_cases hpair : pair.1 ∈ pairs.map (·.1)
    · simp [hpair]
    · simp [hpair, List.eraseDups_cons]

end Assigned

section Entries

variable {pairs : List (String × String)} {items : List String} {value item : String}
  {env : Environment} {fault : SettingFault}

def enter (env : Environment) (item : String) : Except SettingFault Environment :=
  if isBlankText item then .ok env
  else do
    let (name, path) ← parsePair item
    return env.assign name path

def FirstMalformed (items : List String) (item : String) : Prop :=
  ∃ before after, items = before ++ item :: after ∧ (∀ other ∈ before, ¬ Malformed other) ∧
    Malformed item

theorem Spells.noComma (h : Spells pairs items) : ∀ item ∈ items, ',' ∉ item.toList := by
  induction h with
  | nil => simp
  | blank hblank _ ih => exact List.forall_mem_cons.mpr ⟨hblank.not_mem (by decide), ih⟩
  | pair hpair _ ih => exact List.forall_mem_cons.mpr ⟨hpair.noComma, ih⟩

theorem Spells.not_malformed (h : Spells pairs items) : ∀ item ∈ items, ¬ Malformed item := by
  induction h with
  | nil => simp
  | blank hblank _ ih => exact List.forall_mem_cons.mpr ⟨fun hbad => hbad.1 hblank, ih⟩
  | pair hpair _ ih => exact List.forall_mem_cons.mpr ⟨hpair.not_malformed, ih⟩

theorem Entries.splitAt_eq (h : Entries value items) : splitAt ',' value = items := by
  rw [h.joined]
  exact Path.splitAt_intercalate h.nonempty h.noComma

theorem parsePairs_eq (h : Entries value items) : parsePairs value = items.foldlM enter [] := by
  rw [parsePairs, h.splitAt_eq, List.foldlM_filter]
  congr 1
  funext env item
  rw [enter]
  cases isBlankText item <;> rfl

theorem Spells.entered (h : Spells pairs items) :
    items.foldlM enter env = .ok (pairs.foldl (fun env pair => env.assign pair.1 pair.2) env) := by
  induction h generalizing env with
  | nil => rfl
  | blank hblank _ ih =>
    rw [List.foldlM_cons, enter, if_pos (isBlankText_iff.mpr hblank)]
    exact ih
  | pair hpair _ ih =>
    rw [List.foldlM_cons, enter, if_neg (mt isBlankText_iff.mp hpair.not_blank), hpair.parsed]
    exact ih

theorem enter_eq_error :
    enter env item = .error fault ↔ Malformed item ∧ fault = .badPair item := by
  rw [enter]
  split
  · rename_i hblank
    have hnot : ¬ Malformed item := fun h => h.1 (isBlankText_iff.mp hblank)
    simp [hnot]
  · rename_i hblank
    rw [← parsePair_eq_error (mt isBlankText_iff.mpr hblank), Success.bind_eq_error]
    simp [pure, Except.pure]

/-- Entries are refused at the first malformed one. -/
theorem enterAll_eq_error : items.foldlM enter env = .error fault ↔
    ∃ item, FirstMalformed items item ∧ fault = .badPair item := by
  induction items generalizing env with
  | nil => simp [FirstMalformed, pure, Except.pure]
  | cons first rest ih =>
    rw [List.foldlM_cons, Success.bind_eq_error, enter_eq_error]
    constructor
    · rintro (⟨hfirst, rfl⟩ | ⟨next, hnext, h⟩)
      · exact ⟨first, ⟨[], rest, rfl, by simp, hfirst⟩, rfl⟩
      · have hgood : ¬ Malformed first := by
          intro hbad
          cases hnext.symm.trans (enter_eq_error.mpr ⟨hbad, rfl⟩)
        obtain ⟨item, ⟨before, after, rfl, hbefore, hitem⟩, rfl⟩ := ih.mp h
        exact ⟨item, ⟨first :: before, after, rfl,
          List.forall_mem_cons.mpr ⟨hgood, hbefore⟩, hitem⟩, rfl⟩
    · rintro ⟨item, ⟨before, after, heq, hbefore, hitem⟩, rfl⟩
      cases before with
      | nil =>
        obtain ⟨rfl, rfl⟩ := List.cons.inj heq
        exact Or.inl ⟨hitem, rfl⟩
      | cons top before =>
        obtain ⟨rfl, rfl⟩ := List.cons.inj heq
        obtain ⟨htop, hbefore⟩ := List.forall_mem_cons.mp hbefore
        refine Or.inr ?_
        cases hnext : enter env first with
        | error f => exact absurd (enter_eq_error.mp hnext).1 htop
        | ok next => exact ⟨next, rfl, ih.mpr ⟨item, ⟨before, after, rfl, hbefore, hitem⟩, rfl⟩⟩

theorem exists_firstMalformed_iff :
    (∃ item, FirstMalformed items item) ↔ ∃ item ∈ items, Malformed item := by
  constructor
  · rintro ⟨item, before, after, rfl, -, hitem⟩
    exact ⟨item, by simp, hitem⟩
  · rintro ⟨item, hmem, hitem⟩
    induction items with
    | nil => simp at hmem
    | cons first rest ih =>
      by_cases hfirst : Malformed first
      · exact ⟨first, [], rest, rfl, by simp, hfirst⟩
      · have hrest : item ∈ rest := by
          rcases List.mem_cons.mp hmem with rfl | hrest
          · exact absurd hitem hfirst
          · exact hrest
        obtain ⟨found, before, after, rfl, hbefore, hfound⟩ := ih hrest
        exact ⟨found, first :: before, after, rfl,
          List.forall_mem_cons.mpr ⟨hfirst, hbefore⟩, hfound⟩

theorem entries_splitAt (value : String) : Entries value (splitAt ',' value) where
  nonempty := by simpa [splitAt] using Path.splitChars_ne_nil ',' value.toList
  noComma := by simpa [splitAt] using Path.not_mem_splitChars
  joined := by
    rw [← String.toList_inj, String.toList_intercalate, splitAt, List.map_map]
    simpa using (Path.intercalate_splitChars ',' value.toList).symm

/-- What spells some pairs one after the other is read as these pairs, each name once, with the
last pair of a name counting. Every text has its entries between the commas, and it is refused just
if one of them is malformed, with the first of these shown. -/
theorem parsePairs_spelled :
    (∀ (pairs : List (String × String)) (items : List String), Spells pairs items →
      ∃ env, parsePairs (",".intercalate items) = .ok env ∧
        env.map (·.1) = (pairs.map (·.1)).eraseDups ∧
        ∀ name, env.lookup name = pairs.reverse.lookup name) ∧
      (∀ value, ∃! items, Entries value items) ∧
      ∀ (value : String) (items : List String), Entries value items →
        ((∃ fault, parsePairs value = .error fault) ↔ ∃ item ∈ items, Malformed item) ∧
          ∀ fault, parsePairs value = .error fault ↔
            ∃ item, FirstMalformed items item ∧ fault = .badPair item := by
  have hread : ∀ (pairs : List (String × String)) (items : List String), Spells pairs items →
      parsePairs (",".intercalate items) = .ok (assignAll pairs) := by
    intro pairs items h
    cases items with
    | nil =>
      cases h
      have hblank : Entries "" [""] := ⟨List.cons_ne_nil "" [], by simp, rfl⟩
      exact (parsePairs_eq hblank).trans rfl
    | cons item items =>
      rw [parsePairs_eq ⟨List.cons_ne_nil item items, h.noComma, rfl⟩]
      exact h.entered
  refine ⟨fun pairs items h => ⟨_, hread pairs items h, names_assignAll pairs,
    lookup_assignAll pairs⟩, ?_, ?_⟩
  · intro value
    exact ⟨_, entries_splitAt value, fun items h => h.splitAt_eq.symm⟩
  · intro value items h
    have herror : ∀ fault, parsePairs value = .error fault ↔
        ∃ item, FirstMalformed items item ∧ fault = .badPair item := by
      intro fault
      rw [parsePairs_eq h, enterAll_eq_error]
    refine ⟨?_, herror⟩
    simp only [herror]
    rw [exists_comm]
    simp [exists_firstMalformed_iff]

end Entries

section Compilers

private theorem part_of_ends {text : String} {first last : Char}
    (hfirst : text.toList.head? = some first) (hlast : text.toList.getLast? = some last)
    (hblank : isBlank first = false ∧ isBlank last = false) (hcomma : ',' ∉ text.toList) :
    Part text :=
  ⟨⟨first, hfirst, hblank.1⟩, ⟨last, hlast, hblank.2⟩, hcomma⟩

/-- One compiler is replaced twice, and the path of an interpreter has an equals sign in it. -/
private theorem spells_compilers :
    Spells [("gcc", "clang"), ("py", "/opt/py=3"), ("gcc", "gcc-13")]
      ["gcc=clang", "  ", " py =/opt/py=3", "gcc=gcc-13"] := by
  have hpart : ∀ text ∈ ["gcc", "clang", "py", "/opt/py=3", "gcc-13"], Part text := by
    intro text htext
    fin_cases htext <;> exact part_of_ends rfl rfl (by decide) (by decide)
  have hnone : Blank "" := by simp [Blank]
  have hspace : Blank " " ∧ Blank "  " := by simp [Blank, isBlank]
  have hclang : SpellsPair "gcc" "clang" "gcc=clang" :=
    .padded (a := "") (b := "") (c := "") (d := "") (hpart _ (by simp)) (by decide)
      (hpart _ (by simp)) hnone hnone hnone hnone
  have hpython : SpellsPair "py" "/opt/py=3" " py =/opt/py=3" :=
    .padded (a := " ") (b := " ") (c := "") (d := "") (hpart _ (by simp)) (by decide)
      (hpart _ (by simp)) hspace.1 hspace.1 hnone hnone
  have hnewer : SpellsPair "gcc" "gcc-13" "gcc=gcc-13" :=
    .padded (a := "") (b := "") (c := "") (d := "") (hpart _ (by simp)) (by decide)
      (hpart _ (by simp)) hnone hnone hnone hnone
  exact .pair hclang (.blank hspace.2 (.pair hpython (.pair hnewer .nil)))

/-- The later replacement of the compiler counts. Without a name before its equals sign an entry
is refused. -/
theorem parsePairs_spelled_compilers :
    Spells [("gcc", "clang"), ("py", "/opt/py=3"), ("gcc", "gcc-13")]
        ["gcc=clang", "  ", " py =/opt/py=3", "gcc=gcc-13"] ∧
      (∃ env, parsePairs "gcc=clang,  , py =/opt/py=3,gcc=gcc-13" = .ok env ∧
        env.map (·.1) = ["gcc", "py"] ∧ env.lookup "gcc" = some "gcc-13" ∧
        env.lookup "py" = some "/opt/py=3") ∧
      Entries "gcc=clang, =x,y" ["gcc=clang", " =x", "y"] ∧
      parsePairs "gcc=clang, =x,y" = .error (.badPair " =x") := by
  have hentries : Entries "gcc=clang, =x,y" ["gcc=clang", " =x", "y"] :=
    ⟨List.cons_ne_nil _ _, by decide, rfl⟩
  obtain ⟨hread, -, hrefused⟩ := parsePairs_spelled
  obtain ⟨env, hparsed, hnames, hlookup⟩ := hread _ _ spells_compilers
  refine ⟨spells_compilers, ⟨env, hparsed, hnames, hlookup "gcc", hlookup "py"⟩, hentries, ?_⟩
  have hgood : ¬ Malformed "gcc=clang" := spells_compilers.not_malformed _ (by simp)
  have hbad : Malformed " =x" := by
    refine ⟨fun hblank => hblank.not_mem (show isBlank '=' = false by decide) (by decide), ?_⟩
    exact Or.inr ⟨" ", "x", rfl, by decide, Or.inl (by simp [Blank, isBlank])⟩
  exact ((hrefused _ _ hentries).2 _).mpr
    ⟨" =x", ⟨["gcc=clang"], ["y"], rfl, by simpa using hgood, hbad⟩, rfl⟩

end Compilers

end SnippetRunner.Settings
