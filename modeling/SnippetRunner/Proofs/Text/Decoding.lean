import Mathlib.Data.List.Infix
import Mathlib.Data.Nat.Find
import SnippetRunner.Text.Utf8

/-!
What the decoder makes of octets. A character stands for its encoding; where no encoding stands,
the longest beginning of one yields a single replacement, and so does an octet that begins none.
What was written for the first octets is final but for the replacement of a beginning that was
not continued.
-/
namespace SnippetRunner.Text

def readOn : Utf8State → List UInt8 → List Char × Utf8State
  | state, [] => ([], state)
  | state, b :: rest =>
    let (out, next) := utf8Step b.toNat state
    let (more, last) := readOn next rest
    (out ++ more, last)

theorem readOn_append (state : Utf8State) (front rest : List UInt8) :
    readOn state (front ++ rest) =
      ((readOn state front).1 ++ (readOn (readOn state front).2 rest).1,
        (readOn (readOn state front).2 rest).2) := by
  induction front generalizing state with
  | nil => rfl
  | cons b front ih => simp only [List.cons_append, readOn, ih, List.append_assoc]

theorem utf8Run_eq (octets : List UInt8) :
    utf8Run octets = ((readOn .start octets).1.reverse, (readOn .start octets).2) := by
  have hfold (written : List Char) (state : Utf8State) :
      octets.foldl (fun acc b =>
          let (out, state) := utf8Step b.toNat acc.2
          (out.reverse ++ acc.1, state)) (written, state) =
        ((readOn state octets).1.reverse ++ written, (readOn state octets).2) := by
    induction octets generalizing written state with
    | nil => rfl
    | cons b rest ih => simp only [List.foldl_cons, readOn, ih, List.reverse_append,
        List.append_assoc]
  rw [utf8Run, hfold, List.append_nil]

theorem decodeChars_eq (octets : List UInt8) :
    decodeChars octets = (readOn .start octets).1 ++ utf8End (readOn .start octets).2 := by
  simp only [decodeChars, utf8Run_eq, List.reverse_reverse]

/-- Cutting octets leaves what was written before the cut, and at most one replacement after it. -/
theorem decodeChars_take (octets : List UInt8) (n : Nat) :
    ∃ kept, kept <+: decodeChars octets ∧
      (decodeChars (octets.take n) = kept ∨
        decodeChars (octets.take n) = kept ++ [replacement]) := by
  refine ⟨(readOn .start (octets.take n)).1, ?_, ?_⟩
  · rw [decodeChars_eq octets]
    conv_rhs => rw [← List.take_append_drop n octets, readOn_append]
    rw [List.append_assoc]
    exact List.prefix_append ..
  · rw [decodeChars_eq]
    cases (readOn .start (octets.take n)).2 with
    | start => exact .inl (List.append_nil _)
    | inside need value low high => exact .inr rfl

section Encodings

theorem char_toNat_valid (c : Char) :
    c.toNat < 0xD800 ∨ 0xDFFF < c.toNat ∧ c.toNat < 0x110000 := c.valid

/-- The encoder writes what the library's encoding of characters is. -/
theorem utf8Octets_eq (c : Char) : utf8Octets c = String.utf8EncodeChar c := by
  have hvalid := char_toNat_valid c
  have hcons {m n : Nat} {rest rest' : List UInt8} (h : m = n) (hrest : rest = rest') :
      m.toUInt8 :: rest = UInt8.ofNat n :: rest' := by
    rw [h, hrest]
  unfold utf8Octets String.utf8EncodeChar
  simp only [Char.toNat] at hvalid ⊢
  generalize c.val.toNat = n at *
  split
  · rw [if_pos (by omega)]
  split
  · rw [if_neg (by omega), if_pos (by omega)]
    exact hcons (by omega) (hcons (by omega) rfl)
  split
  · rw [if_neg (by omega), if_neg (by omega), if_pos (by omega)]
    exact hcons (by omega) (hcons (by omega) (hcons (by omega) rfl))
  · rw [if_neg (by omega), if_neg (by omega), if_neg (by omega)]
    exact hcons (by omega) (hcons (by omega) (hcons (by omega) (hcons (by omega) rfl)))

inductive Lead (b : Nat) : Utf8State → Prop
  | two : 0xC2 ≤ b → b ≤ 0xDF → Lead b (.inside 1 (b - 0xC0) 0x80 0xBF)
  | three : 0xE0 ≤ b → b ≤ 0xEF → Lead b (.inside 2 (b - 0xE0)
      (if b = 0xE0 then 0xA0 else 0x80) (if b = 0xED then 0x9F else 0xBF))
  | four : 0xF0 ≤ b → b ≤ 0xF4 → Lead b (.inside 3 (b - 0xF0)
      (if b = 0xF0 then 0x90 else 0x80) (if b = 0xF4 then 0x8F else 0xBF))

inductive Begun : List UInt8 → Utf8State → Prop
  | first {x : UInt8} {state : Utf8State} : Lead x.toNat state → Begun [x] state
  | second {x y : UInt8} {need value low high : Nat} :
    Lead x.toNat (.inside (need + 2) value low high) → low ≤ y.toNat → y.toNat ≤ high →
    Begun [x, y] (.inside (need + 1) (value * 64 + (y.toNat - 0x80)) 0x80 0xBF)
  | third {x y z : UInt8} {value low high : Nat} :
    Lead x.toNat (.inside 3 value low high) → low ≤ y.toNat → y.toNat ≤ high →
    0x80 ≤ z.toNat → z.toNat ≤ 0xBF →
    Begun [x, y, z]
      (.inside 1 ((value * 64 + (y.toNat - 0x80)) * 64 + (z.toNat - 0x80)) 0x80 0xBF)

variable {octet : UInt8} {octets front : List UInt8} {state : Utf8State}
  {need value low high : Nat} {c : Char}

theorem Lead.read {b : Nat} (h : Lead b state) : utf8First b = ([], state) := by
  unfold utf8First
  cases h with
  | two hlow hhigh => grind
  | three hlow hhigh => grind
  | four hlow hhigh => grind

theorem Lead.of_one {b : Nat} (h : Lead b (.inside need value low high)) (hneed : need = 1) :
    0xC2 ≤ b ∧ b ≤ 0xDF ∧ value = b - 0xC0 ∧ low = 0x80 ∧ high = 0xBF := by
  cases h with
  | two hlow hhigh => exact ⟨hlow, hhigh, rfl, rfl, rfl⟩
  | _ => cases hneed

theorem Lead.of_two {b : Nat} (h : Lead b (.inside need value low high)) (hneed : need = 2) :
    0xE0 ≤ b ∧ b ≤ 0xEF ∧ value = b - 0xE0 ∧ 0x80 ≤ low ∧ high ≤ 0xBF ∧
      (b = 0xE0 → 0xA0 ≤ low) ∧ (b = 0xED → high ≤ 0x9F) := by
  cases h with
  | three hlow hhigh =>
    exact ⟨hlow, hhigh, rfl, by split <;> decide, by split <;> decide,
      fun hb => by rw [if_pos hb], fun hb => by rw [if_pos hb]⟩
  | _ => cases hneed

theorem Lead.of_three {b : Nat} (h : Lead b (.inside need value low high)) (hneed : need = 3) :
    0xF0 ≤ b ∧ b ≤ 0xF4 ∧ value = b - 0xF0 ∧ 0x80 ≤ low ∧ high ≤ 0xBF ∧
      (b = 0xF0 → 0x90 ≤ low) ∧ (b = 0xF4 → high ≤ 0x8F) := by
  cases h with
  | four hlow hhigh =>
    exact ⟨hlow, hhigh, rfl, by split <;> decide, by split <;> decide,
      fun hb => by rw [if_pos hb], fun hb => by rw [if_pos hb]⟩
  | _ => cases hneed

theorem Lead.bounds {b : Nat} (h : Lead b (.inside need value low high)) :
    0 < need ∧ 0x80 ≤ low ∧ low ≤ high ∧ high ≤ 0xBF := by
  cases h with
  | two _ _ => decide
  | three _ _ => split <;> split <;> omega
  | four _ _ => split <;> split <;> omega

/-- An octet is a character of its own, leads encodings of several octets, or is in none. -/
theorem utf8First_cases (b : Nat) :
    (b < 0x80 ∧ utf8First b = ([Char.ofNat b], .start)) ∨ (∃ state, Lead b state) ∨
      utf8First b = ([replacement], .start) := by
  by_cases hone : b < 0x80
  · exact .inl ⟨hone, by rw [utf8First, if_pos hone]⟩
  by_cases htwo : 0xC2 ≤ b ∧ b ≤ 0xDF
  · exact .inr (.inl ⟨_, .two htwo.1 htwo.2⟩)
  by_cases hthree : 0xE0 ≤ b ∧ b ≤ 0xEF
  · exact .inr (.inl ⟨_, .three hthree.1 hthree.2⟩)
  by_cases hfour : 0xF0 ≤ b ∧ b ≤ 0xF4
  · exact .inr (.inl ⟨_, .four hfour.1 hfour.2⟩)
  · refine .inr (.inr ?_)
    unfold utf8First
    grind

/-- A beginning of encodings yields nothing as yet. -/
theorem Begun.read (h : Begun octets state) : readOn .start octets = ([], state) := by
  cases h with
  | first hlead => simp [readOn, utf8Step, hlead.read]
  | second hlead hlow hhigh => simp [readOn, utf8Step, hlead.read, hlow, hhigh]
  | third hlead hlow hhigh hlow' hhigh' =>
    simp [readOn, utf8Step, hlead.read, hlow, hhigh, hlow', hhigh']

/-- After a beginning of encodings some octet may follow, and it is one of a range. -/
theorem Begun.inside (h : Begun octets state) : ∃ need value low high,
    state = .inside (need + 1) value low high ∧ 0x80 ≤ low ∧ low ≤ high ∧ high ≤ 0xBF := by
  cases h with
  | first hlead =>
    cases state with
    | start => cases hlead
    | inside need value low high =>
      obtain ⟨hneed, hbounds⟩ := hlead.bounds
      exact ⟨need - 1, value, low, high, by rw [Nat.sub_add_cancel hneed], hbounds⟩
  | second _ _ _ => exact ⟨_, _, _, _, rfl, by decide⟩
  | third _ _ _ _ _ => exact ⟨0, _, _, _, rfl, by decide⟩

theorem Begun.more (h : Begun front (.inside (need + 2) value low high))
    (hlow : low ≤ octet.toNat) (hhigh : octet.toNat ≤ high) : Begun (front ++ [octet])
      (.inside (need + 1) (value * 64 + (octet.toNat - 0x80)) 0x80 0xBF) := by
  cases h with
  | first hlead => exact .second hlead hlow hhigh
  | second hlead hlow' hhigh' =>
    cases hlead
    exact .third (.four ‹_› ‹_›) hlow' hhigh' hlow hhigh

/-- A beginning of a beginning is one. -/
theorem Begun.earlier (h : Begun octets state) (hfront : front <+: octets) (hne : front ≠ []) :
    ∃ state, Begun front state := by
  obtain ⟨x, front, rfl⟩ := List.exists_cons_of_ne_nil hne
  cases h with
  | first hlead =>
    obtain ⟨rfl, hnil⟩ := List.cons_prefix_cons.mp hfront
    rw [List.prefix_nil.mp hnil]
    exact ⟨_, .first hlead⟩
  | second hlead hlow hhigh =>
    obtain ⟨rfl, hrest⟩ := List.cons_prefix_cons.mp hfront
    rcases List.prefix_cons_iff.mp hrest with rfl | ⟨rest, rfl, hnil⟩
    · exact ⟨_, .first hlead⟩
    · rw [List.prefix_nil.mp hnil]
      exact ⟨_, .second hlead hlow hhigh⟩
  | third hlead hlow hhigh hlow' hhigh' =>
    obtain ⟨rfl, hrest⟩ := List.cons_prefix_cons.mp hfront
    rcases List.prefix_cons_iff.mp hrest with rfl | ⟨rest, rfl, hmore⟩
    · exact ⟨_, .first hlead⟩
    rcases List.prefix_cons_iff.mp hmore with rfl | ⟨more, rfl, hnil⟩
    · exact ⟨_, .second hlead hlow hhigh⟩
    · rw [List.prefix_nil.mp hnil]
      exact ⟨_, .third hlead hlow hhigh hlow' hhigh'⟩

section Bits

variable {n : Nat} {x y z w : UInt8}

theorem exists_toNat (h : n.isValidChar) : ∃ c : Char, c.toNat = n :=
  ⟨Char.ofNatAux n h, rfl⟩

theorem exists_octet (h : n < 256) : ∃ x : UInt8, n = x.toNat :=
  ⟨n.toUInt8, by simpa using (Nat.mod_eq_of_lt h).symm⟩

theorem toUInt8_eq (h : n = x.toNat) : n.toUInt8 = x := by
  rw [h, Nat.toUInt8_eq, UInt8.ofNat_toNat]

theorem utf8Octets_one (hx : c.toNat = x.toNat) (hsize : c.toNat < 0x80) : utf8Octets c = [x] := by
  rw [utf8Octets, if_pos hsize, toUInt8_eq hx]

theorem utf8Octets_two (hx : 0xC0 + c.toNat / 64 = x.toNat) (hy : 0x80 + c.toNat % 64 = y.toNat)
    (hsize : 0x80 ≤ c.toNat ∧ c.toNat < 0x800) : utf8Octets c = [x, y] := by
  rw [utf8Octets, if_neg (by omega), if_pos (by omega), toUInt8_eq hx, toUInt8_eq hy]

theorem utf8Octets_three (hx : 0xE0 + c.toNat / 4096 = x.toNat)
    (hy : 0x80 + c.toNat / 64 % 64 = y.toNat) (hz : 0x80 + c.toNat % 64 = z.toNat)
    (hsize : 0x800 ≤ c.toNat ∧ c.toNat < 0x10000) : utf8Octets c = [x, y, z] := by
  rw [utf8Octets, if_neg (by omega), if_neg (by omega), if_pos (by omega), toUInt8_eq hx,
    toUInt8_eq hy, toUInt8_eq hz]

theorem utf8Octets_four (hx : 0xF0 + c.toNat / 262144 = x.toNat)
    (hy : 0x80 + c.toNat / 4096 % 64 = y.toNat) (hz : 0x80 + c.toNat / 64 % 64 = z.toNat)
    (hw : 0x80 + c.toNat % 64 = w.toNat) (hsize : 0x10000 ≤ c.toNat) :
    utf8Octets c = [x, y, z, w] := by
  rw [utf8Octets, if_neg (by omega), if_neg (by omega), if_neg (by omega), toUInt8_eq hx,
    toUInt8_eq hy, toUInt8_eq hz, toUInt8_eq hw]

end Bits

/-- With the last octet that is missing a beginning becomes the encoding of the character whose
bits were read. -/
theorem Begun.completed (h : Begun front (.inside 1 value low high)) (hlow : low ≤ octet.toNat)
    (hhigh : octet.toNat ≤ high) : ∃ c, utf8Octets c = front ++ [octet] := by
  generalize hstate : Utf8State.inside 1 value low high = state at h
  cases h with
  | @first x _ hlead =>
    subst hstate
    have hx := hlead.of_one rfl
    obtain ⟨c, hc⟩ := exists_toNat (n := (x.toNat - 0xC0) * 64 + (octet.toNat - 0x80))
      (.inl (by omega))
    exact ⟨c, utf8Octets_two (by omega) (by omega) (by omega)⟩
  | @second x y need _ _ _ hlead hlow' hhigh' =>
    obtain ⟨hneed, -, rfl, rfl⟩ := Utf8State.inside.inj hstate
    have hx := hlead.of_two (by omega)
    obtain ⟨c, hc⟩ := exists_toNat
      (n := ((x.toNat - 0xE0) * 64 + (y.toNat - 0x80)) * 64 + (octet.toNat - 0x80))
      (by unfold Nat.isValidChar; omega)
    exact ⟨c, utf8Octets_three (by omega) (by omega) (by omega) (by omega)⟩
  | @third x y z _ _ _ hlead hlow' hhigh' hlow'' hhigh'' =>
    obtain ⟨-, -, rfl, rfl⟩ := Utf8State.inside.inj hstate
    have hx := hlead.of_three rfl
    obtain ⟨c, hc⟩ := exists_toNat
      (n := (((x.toNat - 0xF0) * 64 + (y.toNat - 0x80)) * 64 + (z.toNat - 0x80)) * 64 +
        (octet.toNat - 0x80)) (.inr (by omega))
    exact ⟨c, utf8Octets_four (by omega) (by omega) (by omega) (by omega) (by omega)⟩

/-- An encoding is a single octet, or a beginning with the last octet that it lacks. -/
theorem encoding_cases (c : Char) :
    (∃ x : UInt8, utf8Octets c = [x] ∧ x.toNat = c.toNat ∧ c.toNat < 0x80) ∨
      ∃ front octet value low high, utf8Octets c = front ++ [octet] ∧
        Begun front (.inside 1 value low high) ∧ low ≤ octet.toNat ∧ octet.toNat ≤ high ∧
        value * 64 + (octet.toNat - 0x80) = c.toNat := by
  have hvalid := char_toNat_valid c
  obtain ⟨last, hlast⟩ := exists_octet (n := 0x80 + c.toNat % 64) (by omega)
  obtain ⟨third, hthird⟩ := exists_octet (n := 0x80 + c.toNat / 64 % 64) (by omega)
  by_cases hone : c.toNat < 0x80
  · obtain ⟨x, hx⟩ := exists_octet (n := c.toNat) (by omega)
    exact .inl ⟨x, utf8Octets_one hx hone, hx.symm, hone⟩
  refine .inr ?_
  by_cases htwo : c.toNat < 0x800
  · obtain ⟨x, hx⟩ := exists_octet (n := 0xC0 + c.toNat / 64) (by omega)
    exact ⟨[x], last, _, _, _, utf8Octets_two hx hlast (by omega),
      .first (.two (by omega) (by omega)), by omega, by omega, by omega⟩
  by_cases hthree : c.toNat < 0x10000
  · obtain ⟨x, hx⟩ := exists_octet (n := 0xE0 + c.toNat / 4096) (by omega)
    exact ⟨[x, third], last, _, _, _, utf8Octets_three hx hthird hlast (by omega),
      .second (.three (by omega) (by omega)) (by grind) (by grind), by omega, by omega, by omega⟩
  · obtain ⟨x, hx⟩ := exists_octet (n := 0xF0 + c.toNat / 262144) (by omega)
    obtain ⟨second, hsecond⟩ := exists_octet (n := 0x80 + c.toNat / 4096 % 64) (by omega)
    exact ⟨[x, second, third], last, _, _, _,
      utf8Octets_four hx hsecond hthird hlast (by omega),
      .third (.four (by omega) (by omega)) (by grind) (by grind) (by omega) (by omega),
      by omega, by omega, by omega⟩

/-- The encoding of a character yields the character. -/
theorem read_encoding (c : Char) : readOn .start (utf8Octets c) = ([c], .start) := by
  rcases encoding_cases c with ⟨x, hx, hnat, hsmall⟩ |
    ⟨front, octet, value, low, high, heq, hbegun, hlow, hhigh, hbits⟩
  · rw [hx]
    simp [readOn, utf8Step, utf8First, hnat, hsmall, Char.ofNat_toNat]
  · rw [heq, readOn_append, hbegun.read]
    simp [readOn, utf8Step, hlow, hhigh, hbits, Char.ofNat_toNat]

end Encodings

section Rule

def Begins (octets : List UInt8) : Prop := ∃ c, octets <+: String.utf8EncodeChar c

/-- At the head of octets stands no encoding, and the longest beginning of one there is `bad`; if
no encoding begins like this, `bad` is the first octet. -/
structure Broken (bad rest : List UInt8) : Prop where
  none : ∀ c, ¬ String.utf8EncodeChar c <+: bad ++ rest
  nonempty : bad ≠ []
  begins : Begins bad ∨ bad.length = 1
  longest : ∀ more, more <+: bad ++ rest → Begins more → more.length ≤ bad.length

/-- The text of octets: a character for each encoding, and a replacement for what is broken. -/
inductive Decodes : List UInt8 → List Char → Prop
  | done : Decodes [] []
  | char (c : Char) {rest : List UInt8} {text : List Char} : Decodes rest text →
    Decodes (String.utf8EncodeChar c ++ rest) (c :: text)
  | broken {bad rest : List UInt8} {text : List Char} : Broken bad rest → Decodes rest text →
    Decodes (bad ++ rest) (replacement :: text)

variable {octets bad rest : List UInt8} {text : List Char} {state : Utf8State}

/-- Whatever is begun can be completed. -/
theorem Begun.begins (h : Begun octets state) : Begins octets := by
  obtain ⟨need, value, low, high, rfl, hlow, hrange, hhigh⟩ := h.inside
  induction need generalizing octets value low high with
  | zero =>
    obtain ⟨x, rfl⟩ := exists_octet (n := low) (by omega)
    obtain ⟨c, hc⟩ := h.completed (Nat.le_refl _) hrange
    exact ⟨c, by rw [← utf8Octets_eq, hc]; exact List.prefix_append ..⟩
  | succ need ih =>
    obtain ⟨x, rfl⟩ := exists_octet (n := low) (by omega)
    obtain ⟨c, hc⟩ := ih _ _ _ (h.more (Nat.le_refl _) hrange) (by decide) (by decide) (by decide)
    exact ⟨c, (List.prefix_append ..).trans hc⟩

/-- What encodings begin with is one of them or was begun. -/
theorem Begins.cases (h : Begins octets) (hne : octets ≠ []) :
    (∃ c, octets = String.utf8EncodeChar c) ∨ ∃ state, Begun octets state := by
  obtain ⟨c, hc⟩ := h
  by_cases hwhole : octets = String.utf8EncodeChar c
  · exact .inl ⟨c, hwhole⟩
  refine .inr ?_
  rw [← utf8Octets_eq] at hc hwhole
  rcases encoding_cases c with ⟨x, hx, -⟩ | ⟨front, octet, _, _, _, heq, hbegun, -⟩
  · rw [hx] at hc hwhole
    rcases List.prefix_cons_iff.mp hc with hnil | ⟨rest, rfl, hrest⟩
    · exact absurd hnil hne
    · rw [List.prefix_nil.mp hrest] at hwhole
      exact absurd rfl hwhole
  · rw [heq] at hc hwhole
    exact hbegun.earlier ((List.prefix_concat_iff.mp hc).resolve_left hwhole) hne

theorem decodeChars_encoding (c : Char) (rest : List UInt8) :
    decodeChars (String.utf8EncodeChar c ++ rest) = c :: decodeChars rest := by
  rw [decodeChars_eq, decodeChars_eq, readOn_append, ← utf8Octets_eq, read_encoding]
  rfl

/-- An octet that cannot follow a beginning is looked at afresh after its replacement. -/
theorem readOn_inside {need value low high : Nat} {octet : UInt8}
    (hout : ¬ (low ≤ octet.toNat ∧ octet.toNat ≤ high)) (rest : List UInt8) :
    readOn (.inside need value low high) (octet :: rest) =
      (replacement :: (readOn .start (octet :: rest)).1, (readOn .start (octet :: rest)).2) := by
  simp [readOn, utf8Step, hout]

theorem Broken.decoded (h : Broken bad rest) :
    decodeChars (bad ++ rest) = replacement :: decodeChars rest := by
  rw [decodeChars_eq, decodeChars_eq, readOn_append]
  have hnone : ¬ ∃ c, bad = String.utf8EncodeChar c :=
    fun ⟨c, hc⟩ => h.none c (hc ▸ List.prefix_append ..)
  by_cases hbegins : Begins bad
  · obtain ⟨state, hbegun⟩ := (hbegins.cases h.nonempty).resolve_left hnone
    obtain ⟨need, value, low, high, rfl, -⟩ := hbegun.inside
    rw [hbegun.read]
    cases rest with
    | nil => rfl
    | cons octet rest =>
      -- An octet in the range would make a longer beginning.
      have hout : ¬ (low ≤ octet.toNat ∧ octet.toNat ≤ high) := by
        intro ⟨hlow, hhigh⟩
        have hlonger : Begins (bad ++ [octet]) := by
          cases need with
          | zero =>
            obtain ⟨c, hc⟩ := hbegun.completed hlow hhigh
            exact ⟨c, by rw [← utf8Octets_eq, hc]⟩
          | succ need => exact (hbegun.more hlow hhigh).begins
        have hlength := h.longest (bad ++ [octet]) (by simp) hlonger
        rw [List.length_append, List.length_singleton] at hlength
        omega
      rw [readOn_inside hout]
      rfl
  · obtain ⟨octet, rfl⟩ := List.length_eq_one_iff.mp (h.begins.resolve_left hbegins)
    rcases utf8First_cases octet.toNat with ⟨hsmall, -⟩ | ⟨state, hlead⟩ | hread
    · obtain ⟨c, hc⟩ := exists_toNat (n := octet.toNat) (by unfold Nat.isValidChar; omega)
      refine absurd ⟨c, ?_⟩ hnone
      rw [← utf8Octets_eq, utf8Octets_one hc (by omega)]
    · exact absurd (Begun.first hlead).begins hbegins
    · simp [readOn, utf8Step, hread]

theorem Decodes.decoded (h : Decodes octets text) : text = decodeChars octets := by
  induction h with
  | done => rfl
  | char c _ ih => rw [decodeChars_encoding, ih]
  | broken hbroken _ ih => rw [hbroken.decoded, ih]

/-- Where no encoding stands, something is broken. -/
theorem exists_broken (hne : octets ≠ []) (hnone : ∀ c, ¬ String.utf8EncodeChar c <+: octets) :
    ∃ bad rest, octets = bad ++ rest ∧ Broken bad rest := by
  classical
  let size := Nat.findGreatest (fun n => Begins (octets.take n)) octets.length
  have hlongest (more : List UInt8) (hmore : more <+: octets) (hbegins : Begins more) :
      more.length ≤ size :=
    Nat.le_findGreatest hmore.length_le (by rwa [← List.prefix_iff_eq_take.mp hmore])
  have hsize : size ≤ octets.length := Nat.findGreatest_le _
  have hlength := List.length_pos_iff.mpr hne
  by_cases hzero : size = 0
  -- Nothing is begun here, so the first octet is broken by itself.
  · refine ⟨octets.take 1, octets.drop 1, (List.take_append_drop ..).symm, ?_⟩
    have hone : (octets.take 1).length = 1 := by rw [List.length_take]; omega
    refine ⟨?_, ?_, .inr hone, fun more hmore hbegins => ?_⟩
    · rwa [List.take_append_drop]
    · exact List.ne_nil_of_length_eq_add_one hone
    · rw [List.take_append_drop] at hmore
      have := hlongest more hmore hbegins
      omega
  · refine ⟨octets.take size, octets.drop size, (List.take_append_drop ..).symm, ?_⟩
    have htaken : (octets.take size).length = size := by rw [List.length_take]; omega
    refine ⟨?_, ?_, .inl ?_, fun more hmore hbegins => ?_⟩
    · rwa [List.take_append_drop]
    · exact List.length_pos_iff.mp (by omega)
    · exact Nat.findGreatest_of_ne_zero rfl hzero
    · rw [List.take_append_drop] at hmore
      rw [htaken]
      exact hlongest more hmore hbegins

/-- Some rule applies at the head of octets. -/
theorem exists_decodes (octets : List UInt8) : ∃ text, Decodes octets text := by
  induction hsize : octets.length using Nat.strong_induction_on generalizing octets with
  | _ size ih =>
    by_cases hempty : octets = []
    · exact ⟨[], hempty ▸ .done⟩
    by_cases hencoded : ∃ c, String.utf8EncodeChar c <+: octets
    · obtain ⟨c, rest, rfl⟩ := hencoded
      have hpos := List.length_pos_iff.mpr (String.utf8EncodeChar_ne_nil (c := c))
      rw [List.length_append] at hsize
      obtain ⟨text, htext⟩ := ih rest.length (by omega) rest rfl
      exact ⟨_, .char c htext⟩
    · obtain ⟨bad, rest, rfl, hbroken⟩ := exists_broken hempty fun c hc => hencoded ⟨c, hc⟩
      have hpos := List.length_pos_iff.mpr hbroken.nonempty
      rw [List.length_append] at hsize
      obtain ⟨text, htext⟩ := ih rest.length (by omega) rest rfl
      exact ⟨_, .broken hbroken htext⟩

/-- The decoder gives the text that the rules give, and they give no other. -/
theorem decodes_iff : Decodes octets text ↔ text = decodeChars octets := by
  refine ⟨Decodes.decoded, ?_⟩
  rintro rfl
  obtain ⟨text, h⟩ := exists_decodes octets
  exact h.decoded ▸ h

end Rule

end SnippetRunner.Text
