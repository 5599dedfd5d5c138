import Mathlib.Data.List.Basic
import SnippetRunner.Execution.Capture
import SnippetRunner.Proofs.Text.Decoding

/-!
What a capture holds of the octets that it was given. In whatever chunks they came, it has kept
the first of them up to its limit and knows whether there were more; and the text of what it kept
is a beginning of the whole text, with at most one replacement for a character that was cut.
-/
namespace SnippetRunner.Capture

structure Holds (c : Capture) (most : Nat) (given : List UInt8) : Prop where
  limit : c.limit = most
  octets : c.octets = given.take most
  length : c.length = min most given.length
  truncated : c.truncated = true ↔ most < given.length

variable {c cut whole : Capture} {most : Nat} {given chunk octets : List UInt8}

theorem holds_ofLimit (most : Nat) : Holds (ofLimit most) most [] where
  limit := rfl
  octets := by simp [Capture.octets, ofLimit]
  length := by simp [ofLimit]
  truncated := by simp [ofLimit]

theorem Holds.room (h : Holds c most given) : c.room = most - given.length := by
  rw [Capture.room, h.limit, h.length]
  omega

/-- A chunk is kept as far as there is room for it. -/
theorem Holds.add (h : Holds c most given) (chunk : List UInt8) :
    Holds (c.add chunk) most (given ++ chunk) := by
  unfold Capture.add
  rw [h.room]
  cases hempty : chunk.isEmpty with
  | true =>
    rw [List.isEmpty_iff.mp hempty, List.append_nil]
    exact h
  | false =>
    have hpos : 0 < chunk.length := List.length_pos_iff.mpr (List.isEmpty_eq_false_iff.mp hempty)
    by_cases hfull : most - given.length = 0
    · have hle : most ≤ given.length := Nat.sub_eq_zero_iff_le.mp hfull
      simp only [hfull, BEq.rfl, Bool.false_eq_true, if_false, if_true]
      refine ⟨h.limit, ?_, ?_, ?_⟩
      · rw [List.take_append_of_le_length hle]
        exact h.octets
      · rw [h.length, List.length_append]
        omega
      · rw [List.length_append]
        exact iff_of_true rfl (by omega)
    · have hlt : given.length < most := by omega
      simp only [beq_iff_eq, hfull, Bool.false_eq_true, if_false]
      refine ⟨h.limit, ?_, ?_, ?_⟩
      · have hall : c.octets = given := h.octets.trans (List.take_of_length_le (by omega))
        unfold Capture.octets at hall ⊢
        rw [List.reverse_cons, List.flatten_append, hall, List.take_append,
          List.take_of_length_le (Nat.le_of_lt hlt)]
        simp
      · rw [h.length, List.length_take, List.length_append]
        dsimp only
        omega
      · rw [Bool.or_eq_true, h.truncated, decide_eq_true_iff, List.length_append]
        omega

theorem Holds.addAll (h : Holds c most given) (chunks : List (List UInt8)) :
    Holds (c.addAll chunks) most (given ++ chunks.flatten) := by
  induction chunks generalizing c given with
  | nil => rw [List.flatten_nil, List.append_nil]; exact h
  | cons chunk rest ih =>
    rw [List.flatten_cons, ← List.append_assoc]
    exact ih (h.add chunk)

theorem holds_addAll (most : Nat) (chunks : List (List UInt8)) :
    Holds ((ofLimit most).addAll chunks) most chunks.flatten :=
  (holds_ofLimit most).addAll chunks

/-- In whatever chunks octets come, a capture keeps as many of the first of them as its limit
allows, and it is truncated exactly when there are more; so neither its text nor whether it is
truncated depends on the chunks. -/
theorem addAll_keeps_first {limit : Int} (hlimit : 0 ≤ limit) {octets : List UInt8}
    {chunks : List (List UInt8)} (hchunks : chunks.flatten = octets) :
    let c := (ofLimit limit).addAll chunks
    c.octets = octets.take limit.toNat ∧ (c.octets.length : Int) = min limit octets.length ∧
      (c.truncated = true ↔ limit < octets.length) ∧
      ∀ chunks' : List (List UInt8), chunks'.flatten = octets →
        ((ofLimit limit).addAll chunks').text = c.text ∧
          ((ofLimit limit).addAll chunks').truncated = c.truncated := by
  obtain ⟨most, rfl⟩ := Int.eq_ofNat_of_zero_le hlimit
  have hholds := holds_addAll most chunks
  rw [hchunks] at hholds
  refine ⟨hholds.octets, ?_, ?_, fun chunks' hchunks' => ?_⟩
  · rw [hholds.octets, List.length_take]
    omega
  · rw [hholds.truncated]
    omega
  · have hholds' := holds_addAll most chunks'
    rw [hchunks'] at hholds'
    refine ⟨?_, Bool.eq_iff_iff.mpr (hholds'.truncated.trans hholds.truncated.symm)⟩
    rw [text, text, hholds.octets, hholds'.octets]

/-- A chunk that ends at the limit fills a capture and truncates nothing, however the octets were
cut before; one more octet is turned away, and a capture of limit zero turns all away. -/
theorem addAll_keeps_first_atLimit : (0 : Int) ≤ 3 ∧ (0 : Int) ≤ 0 ∧
    ((ofLimit 3).addAll [[97, 98], [99]]).octets = [97, 98, 99] ∧
    ((ofLimit 3).addAll [[97, 98], [99]]).truncated = false ∧
    ((ofLimit 3).addAll [[97], [98, 99]]).text = ((ofLimit 3).addAll [[97, 98], [99]]).text ∧
    ((ofLimit 3).addAll [[97, 98], [99], [100]]).octets = [97, 98, 99] ∧
    ((ofLimit 3).addAll [[97, 98], [99], [100]]).truncated = true ∧
    ((ofLimit 0).addAll [[97]]).octets = [] ∧ ((ofLimit 0).addAll [[97]]).truncated = true := by
  have hfull := @addAll_keeps_first 3 (by decide) [97, 98, 99] [[97, 98], [99]] rfl
  have hover := @addAll_keeps_first 3 (by decide) [97, 98, 99, 100] [[97, 98], [99], [100]] rfl
  have hnone := @addAll_keeps_first 0 (by decide) [97] [[97]] rfl
  refine ⟨by decide, by decide, hfull.1, ?_, (hfull.2.2.2 [[97], [98, 99]] rfl).1, hover.1,
    hover.2.2.1.mpr (by decide), hnone.1, hnone.2.2.1.mpr (by decide)⟩
  exact Bool.eq_false_iff.mpr (mt hfull.2.2.1.mp (by decide))

/-- A capture that kept the first octets of what another one kept shows the beginning of its text,
with at most one replacement for the character that was cut; both texts are those of the rules of
decoding. -/
theorem text_of_cut {octets : List UInt8} {n : Nat} {cut whole : Capture}
    (hcut : cut.octets = octets.take n) (hwhole : whole.octets = octets) :
    Text.Decodes octets whole.text.toList ∧ Text.Decodes (octets.take n) cut.text.toList ∧
      ∃ kept, kept <+: whole.text.toList ∧
        (cut.text.toList = kept ∨ cut.text.toList = kept ++ [Text.replacement]) := by
  have htext (c : Capture) : c.text.toList = Text.decodeChars c.octets := String.toList_ofList
  rw [htext, htext, hcut, hwhole]
  exact ⟨Text.decodes_iff.mpr rfl, Text.decodes_iff.mpr rfl, Text.decodeChars_take octets n⟩

/-- The octets of an `a` and a euro sign, cut inside the sign. -/
theorem text_of_cut_euro :
    ((ofLimit 2).addAll [[97, 0xE2], [0x82, 0xAC]]).octets = [97, 0xE2, 0x82, 0xAC].take 2 ∧
    ((ofLimit 4).addAll [[97], [0xE2, 0x82, 0xAC]]).octets = [97, 0xE2, 0x82, 0xAC] ∧
    ((ofLimit 2).addAll [[97, 0xE2], [0x82, 0xAC]]).text = "a\uFFFD" ∧
    ((ofLimit 4).addAll [[97], [0xE2, 0x82, 0xAC]]).text = "a€" ∧
    ∃ kept, kept <+: "a€".toList ∧ ("a\uFFFD".toList = kept ∨
      "a\uFFFD".toList = kept ++ [Text.replacement]) := by
  have hcut : ((ofLimit 2).addAll [[97, 0xE2], [0x82, 0xAC]]).octets =
      [97, 0xE2, 0x82, 0xAC].take 2 := by decide
  have hwhole : ((ofLimit 4).addAll [[97], [0xE2, 0x82, 0xAC]]).octets =
      [97, 0xE2, 0x82, 0xAC] := by decide
  have htext : ((ofLimit 2).addAll [[97, 0xE2], [0x82, 0xAC]]).text = "a\uFFFD" := by decide
  have htext' : ((ofLimit 4).addAll [[97], [0xE2, 0x82, 0xAC]]).text = "a€" := by decide
  refine ⟨hcut, hwhole, htext, htext', ?_⟩
  have hkept := (text_of_cut hcut hwhole).2.2
  rwa [htext, htext'] at hkept

end SnippetRunner.Capture
