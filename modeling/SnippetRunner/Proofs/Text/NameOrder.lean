import Mathlib.Data.List.Sort
import SnippetRunner.Source.Literal

/-!
Texts are ordered by code point. The order is total and transitive, so that sorting names
lists each of them once, in strictly ascending order.
-/
namespace SnippetRunner.NameOrder

open SnippetRunner.Path Source

theorem charsLe_total (a b : List Char) : charsLe a b = true ∨ charsLe b a = true := by
  induction a generalizing b with
  | nil => exact Or.inl rfl
  | cons c cs ih =>
    cases b with
    | nil => exact Or.inr rfl
    | cons d ds =>
      simp only [charsLe, Bool.or_eq_true, Bool.and_eq_true, beq_iff_eq, decide_eq_true_eq]
      rcases Nat.lt_trichotomy c.toNat d.toNat with h | h | h
      · exact Or.inl (Or.inl h)
      · have hcd : c = d := Char.toNat_inj.mp h
        subst d
        rcases ih ds with hle | hle
        · exact Or.inl (Or.inr ⟨rfl, hle⟩)
        · exact Or.inr (Or.inr ⟨rfl, hle⟩)
      · exact Or.inr (Or.inl h)

theorem charsLe_trans (a b c : List Char) (hab : charsLe a b = true)
    (hbc : charsLe b c = true) : charsLe a c = true := by
  induction a generalizing b c with
  | nil => rfl
  | cons x xs ih =>
    cases b with
    | nil => simp [charsLe] at hab
    | cons y ys =>
      cases c with
      | nil => simp [charsLe] at hbc
      | cons z zs =>
        simp only [charsLe, Bool.or_eq_true, Bool.and_eq_true, beq_iff_eq,
          decide_eq_true_eq] at hab hbc ⊢
        rcases hab with h | ⟨rfl, h⟩
        · rcases hbc with h' | ⟨rfl, h'⟩
          · exact Or.inl (by omega)
          · exact Or.inl h
        · rcases hbc with h' | ⟨rfl, h'⟩
          · exact Or.inl h'
          · exact Or.inr ⟨rfl, ih ys zs h h'⟩

theorem textLe_total (a b : String) : (textLe a b || textLe b a) = true := by
  simpa only [textLe, Bool.or_eq_true] using charsLe_total a.toList b.toList

theorem textLe_trans (a b c : String) (hab : textLe a b = true) (hbc : textLe b c = true) :
    textLe a c = true :=
  charsLe_trans a.toList b.toList c.toList hab hbc

theorem charsLe_antisymm (a b : List Char) (hab : charsLe a b = true)
    (hba : charsLe b a = true) : a = b := by
  induction a generalizing b with
  | nil =>
    cases b with
    | nil => rfl
    | cons d ds => simp [charsLe] at hba
  | cons c cs ih =>
    cases b with
    | nil => simp [charsLe] at hab
    | cons d ds =>
      simp only [charsLe, Bool.or_eq_true, Bool.and_eq_true, beq_iff_eq,
        decide_eq_true_eq] at hab hba
      rcases hab with h | ⟨rfl, h⟩
      · rcases hba with h' | ⟨rfl, -⟩ <;> omega
      · rcases hba with h' | ⟨-, h'⟩
        · omega
        · rw [ih ds h h']

theorem textLe_antisymm (a b : String) (hab : textLe a b = true) (hba : textLe b a = true) :
    a = b :=
  String.toList_inj.mp (charsLe_antisymm a.toList b.toList hab hba)

/-- Names in strictly ascending order, and so each of them once. -/
def Ascending (names : List String) : Prop :=
  names.Pairwise fun a b => textLe a b = true ∧ a ≠ b

theorem mem_sortNames (names : List String) (n : String) : n ∈ sortNames names ↔ n ∈ names := by
  simp only [sortNames, List.mem_mergeSort, List.mem_eraseDups]

theorem nodup_eraseDups {α : Type} [BEq α] [LawfulBEq α] (items : List α) :
    items.eraseDups.Nodup := by
  induction h : items.length using Nat.strong_induction_on generalizing items with
  | _ k ih =>
    cases items with
    | nil => simp
    | cons n rest =>
      rw [List.eraseDups_cons, List.nodup_cons]
      constructor
      · simp
      · have hle : (rest.filter fun b => !b == n).length ≤ rest.length :=
          List.length_filter_le _ _
        simp only [List.length_cons] at h
        exact ih _ (by omega) _ rfl

/-- What is listed once each is the same in any order but for the order. -/
theorem eraseDups_perm {α : Type} [BEq α] [LawfulBEq α] {items items' : List α}
    (h : ∀ a, a ∈ items ↔ a ∈ items') : items.eraseDups.Perm items'.eraseDups := by
  rw [List.perm_ext_iff_of_nodup (nodup_eraseDups items) (nodup_eraseDups items')]
  simpa only [List.mem_eraseDups] using h

theorem nodup_sortNames (names : List String) : (sortNames names).Nodup :=
  (List.mergeSort_perm _ _).nodup_iff.mpr (nodup_eraseDups names)

/-- Sorting only changes the order of names of which none occurs twice. -/
theorem sortNames_perm {names : List String} (h : names.Nodup) :
    (sortNames names).Perm names :=
  (List.perm_ext_iff_of_nodup (nodup_sortNames names) h).mpr (mem_sortNames names)

theorem ascending_sortNames (names : List String) : Ascending (sortNames names) := by
  have hsorted : (sortNames names).Pairwise fun a b => textLe a b = true :=
    List.pairwise_mergeSort textLe_trans textLe_total _
  exact hsorted.and (nodup_sortNames names)

/-- Sorted names do not depend on the order in which they were listed. -/
theorem mergeSort_textLe_perm {names names' : List String} (h : names.Perm names') :
    names.mergeSort textLe = names'.mergeSort textLe := by
  have hperm : (names.mergeSort textLe).Perm (names'.mergeSort textLe) :=
    (List.mergeSort_perm ..).trans (h.trans (List.mergeSort_perm ..).symm)
  exact hperm.eq_of_pairwise (fun a b _ _ => textLe_antisymm a b)
    (List.pairwise_mergeSort textLe_trans textLe_total _)
    (List.pairwise_mergeSort textLe_trans textLe_total _)

/-- The names of a set are sorted to the same list however the set is enumerated. -/
theorem sortNames_congr {names names' : List String} (h : ∀ n, n ∈ names ↔ n ∈ names') :
    sortNames names = sortNames names' :=
  mergeSort_textLe_perm (eraseDups_perm h)

section Paths

theorem namesLe_total (a b : List String) : (namesLe a b || namesLe b a) = true := by
  induction a generalizing b with
  | nil => rfl
  | cons x xs ih =>
    cases b with
    | nil => rfl
    | cons y ys =>
      by_cases hxy : x = y
      · subst hxy
        simpa [namesLe] using ih ys
      · simpa [namesLe, hxy, Ne.symm hxy] using textLe_total x y

theorem namesLe_antisymm (a b : List String) (hab : namesLe a b = true)
    (hba : namesLe b a = true) : a = b := by
  induction a generalizing b with
  | nil =>
    cases b with
    | nil => rfl
    | cons y ys => simp [namesLe] at hba
  | cons x xs ih =>
    cases b with
    | nil => simp [namesLe] at hab
    | cons y ys =>
      by_cases hxy : x = y
      · subst hxy
        simp only [namesLe, beq_self_eq_true, if_true] at hab hba
        rw [ih ys hab hba]
      · simp only [namesLe, beq_iff_eq, hxy, Ne.symm hxy, if_false] at hab hba
        exact absurd (textLe_antisymm x y hab hba) hxy

theorem namesLe_trans (a b c : List String) (hab : namesLe a b = true)
    (hbc : namesLe b c = true) : namesLe a c = true := by
  induction a generalizing b c with
  | nil => rfl
  | cons x xs ih =>
    cases b with
    | nil => simp [namesLe] at hab
    | cons y ys =>
      cases c with
      | nil => simp [namesLe] at hbc
      | cons z zs =>
        by_cases hxy : x = y
        · subst hxy
          by_cases hxz : x = z
          · subst hxz
            simp only [namesLe, beq_self_eq_true, if_true] at hab hbc ⊢
            exact ih ys zs hab hbc
          · simpa only [namesLe, beq_iff_eq, hxz, if_false] using hbc
        · simp only [namesLe, beq_iff_eq, hxy, if_false] at hab
          by_cases hyz : y = z
          · subst hyz
            simpa only [namesLe, beq_iff_eq, hxy, if_false] using hab
          · simp only [namesLe, beq_iff_eq, hyz, if_false] at hbc
            have hxz : x ≠ z := by
              rintro rfl
              exact hxy (textLe_antisymm x y hab hbc)
            simpa only [namesLe, beq_iff_eq, hxz, if_false] using textLe_trans x y z hab hbc

/-- Of paths that start alike no two differ and are not ordered. -/
theorem le_antisymm {p q : Path} (hanchor : p.anchor = q.anchor) (hpq : Path.le p q = true)
    (hqp : Path.le q p = true) : p = q := by
  obtain ⟨anchor, parts⟩ := p
  obtain ⟨anchor', parts'⟩ := q
  cases hanchor
  have hkeys := namesLe_antisymm _ _ hpq hqp
  cases anchor with
  | here => exact congrArg _ hkeys
  | root => exact congrArg _ (List.cons.inj hkeys).2
  | doubleRoot => exact congrArg _ (List.cons.inj hkeys).2

theorem pairwise_mergeSort_le (paths : List Path) :
    (paths.mergeSort Path.le).Pairwise fun p q => Path.le p q = true := by
  have htrans : ∀ p q r, Path.le p q = true → Path.le q r = true → Path.le p r = true :=
    fun p q r => namesLe_trans p.sortKey q.sortKey r.sortKey
  have htotal : ∀ p q, (Path.le p q || Path.le q p) = true :=
    fun p q => namesLe_total p.sortKey q.sortKey
  exact List.pairwise_mergeSort htrans htotal paths

end Paths

end SnippetRunner.NameOrder
