import CniPlugin.Text.Utf8
/-!
# Well-formed UTF-8

Decoding accepts exactly the bytes that encoding produces, so a text has one row of bytes and a row
of bytes at most one text.

Results:
1. `eq_encode_of_decode` and `decode_eq_some_iff`: only encoded texts are decoded.
2. `toString?_eq_some_iff`: the same for strings.
3. `WellFormed.append`, `wellFormed_of_append_encodeChar`: texts may be joined, and cut on both sides
   of a character.
-/

namespace CniPlugin.Text.Utf8

/-! ## Characters of the four lengths -/

theorem toNat_ofNat {n : Nat} (h : n.isValidChar) : (Char.ofNat n).val.toNat = n := by
  have hn : n < 4294967296 := by
    simp only [Nat.isValidChar] at h
    omega
  have hc : Char.ofNat n = Char.ofNatAux n h := dif_pos h
  rw [hc]
  exact UInt32.toNat_ofNatLT (h := hn)

theorem isTail_iff {b : UInt8} : isTail b = true ↔ 0x80 ≤ b.toNat ∧ b.toNat < 0xC0 := by
  simp [isTail, UInt8.le_iff_toNat_le, UInt8.lt_iff_toNat_lt]

/-- A second byte is narrowed down after two lead bytes: from below after `x`, from above after
`y`. -/
theorem bounds_of_second {x y low high a b : UInt8} (hxy : x ≠ y) (hlow : 0x80 ≤ low.toNat)
    (hhigh : high.toNat ≤ 0xC0)
    (h : (if a = x then decide (low ≤ b) && decide (b < 0xC0)
      else if a = y then decide (0x80 ≤ b) && decide (b < high) else isTail b) = true) :
    0x80 ≤ b.toNat ∧ b.toNat < 0xC0 ∧ (a.toNat = x.toNat → low.toNat ≤ b.toNat) ∧
      (a.toNat = y.toNat → b.toNat < high.toNat) := by
  simp only [UInt8.toNat_inj]
  split at h
  · next ha =>
    subst ha
    simp [UInt8.le_iff_toNat_le, UInt8.lt_iff_toNat_lt] at h
    exact ⟨by omega, h.2, fun _ => h.1, fun he => absurd he hxy⟩
  · next hx =>
    split at h
    · next ha =>
      subst ha
      simp [UInt8.le_iff_toNat_le, UInt8.lt_iff_toNat_lt] at h
      exact ⟨h.1, by omega, fun he => absurd he hx, fun _ => h.2⟩
    · next hy =>
      obtain ⟨h1, h2⟩ := isTail_iff.mp h
      exact ⟨h1, h2, fun he => absurd he hx, fun he => absurd he hy⟩

/-- After the lead byte of three there are no overlong forms and no surrogates. -/
theorem bounds_of_isSecondOfThree {a b : UInt8} (h : isSecondOfThree a b = true) :
    0x80 ≤ b.toNat ∧ b.toNat < 0xC0 ∧ (a.toNat = 0xE0 → 0xA0 ≤ b.toNat) ∧
      (a.toNat = 0xED → b.toNat < 0xA0) :=
  bounds_of_second (by decide) (by decide) (by decide) h

/-- After the lead byte of four there are no overlong forms and nothing above U+10FFFF. -/
theorem bounds_of_isSecondOfFour {a b : UInt8} (h : isSecondOfFour a b = true) :
    0x80 ≤ b.toNat ∧ b.toNat < 0xC0 ∧ (a.toNat = 0xF0 → 0x90 ≤ b.toNat) ∧
      (a.toNat = 0xF4 → b.toNat < 0x90) :=
  bounds_of_second (by decide) (by decide) (by decide) h

theorem encodeChar_one {a : UInt8} (ha : a < 0x80) :
    String.utf8EncodeChar (Char.ofNat a.toNat) = [a] := by
  have h : a.toNat < 0x80 := by simpa [UInt8.lt_iff_toNat_lt] using ha
  have hv : (Char.ofNat a.toNat).val.toNat = a.toNat :=
    toNat_ofNat (by simp [Nat.isValidChar]; omega)
  simp only [String.utf8EncodeChar, hv]
  rw [if_pos (by omega)]
  simp

theorem encodeChar_two {a b : UInt8} (h1 : ¬ a < 0xC2) (h2 : a < 0xE0) (hb : isTail b = true) :
    String.utf8EncodeChar (two a b) = [a, b] := by
  have ha : 0xC2 ≤ a.toNat ∧ a.toNat < 0xE0 := by
    simp [UInt8.lt_iff_toNat_lt] at h1 h2
    omega
  obtain ⟨hb1, hb2⟩ := isTail_iff.mp hb
  have hv : (two a b).val.toNat = (a.toNat - 0xC0) * 64 + (b.toNat - 0x80) :=
    toNat_ofNat (by simp [Nat.isValidChar]; omega)
  simp only [String.utf8EncodeChar, hv]
  rw [if_neg (by omega), if_pos (by omega)]
  simp only [List.cons.injEq, and_true, ← UInt8.toNat_inj, UInt8.toNat_ofNat']
  omega

theorem encodeChar_three {a b c : UInt8} (h1 : ¬ a < 0xE0) (h2 : a < 0xF0)
    (hb : isSecondOfThree a b = true) (hc : isTail c = true) :
    String.utf8EncodeChar (three a b c) = [a, b, c] := by
  have ha : 0xE0 ≤ a.toNat ∧ a.toNat < 0xF0 := by
    simp [UInt8.lt_iff_toNat_lt] at h1 h2
    omega
  obtain ⟨hb1, hb2, hb3, hb4⟩ := bounds_of_isSecondOfThree hb
  obtain ⟨hc1, hc2⟩ := isTail_iff.mp hc
  have hv : (three a b c).val.toNat =
      (a.toNat - 0xE0) * 4096 + (b.toNat - 0x80) * 64 + (c.toNat - 0x80) :=
    toNat_ofNat (by simp [Nat.isValidChar]; omega)
  simp only [String.utf8EncodeChar, hv]
  rw [if_neg (by omega), if_neg (by omega), if_pos (by omega)]
  simp only [List.cons.injEq, and_true, ← UInt8.toNat_inj, UInt8.toNat_ofNat']
  omega

theorem encodeChar_four {a b c d : UInt8} (h1 : ¬ a < 0xF0) (h2 : a < 0xF5)
    (hb : isSecondOfFour a b = true) (hc : isTail c = true) (hd : isTail d = true) :
    String.utf8EncodeChar (four a b c d) = [a, b, c, d] := by
  have ha : 0xF0 ≤ a.toNat ∧ a.toNat < 0xF5 := by
    simp [UInt8.lt_iff_toNat_lt] at h1 h2
    omega
  obtain ⟨hb1, hb2, hb3, hb4⟩ := bounds_of_isSecondOfFour hb
  obtain ⟨hc1, hc2⟩ := isTail_iff.mp hc
  obtain ⟨hd1, hd2⟩ := isTail_iff.mp hd
  have hv : (four a b c d).val.toNat =
      (a.toNat - 0xF0) * 262144 + (b.toNat - 0x80) * 4096 + (c.toNat - 0x80) * 64 +
        (d.toNat - 0x80) :=
    toNat_ofNat (by simp [Nat.isValidChar]; omega)
  simp only [String.utf8EncodeChar, hv]
  rw [if_neg (by omega), if_neg (by omega), if_neg (by omega)]
  simp only [List.cons.injEq, and_true, ← UInt8.toNat_inj, UInt8.toNat_ofNat']
  omega

/-! ## Decoding accepts nothing else -/

theorem encode_cons (c : Char) (cs : List Char) :
    encode (c :: cs) = String.utf8EncodeChar c ++ encode cs := by
  simp [encode]

theorem Piece.chars?_char_cons {c : Char} {ps : List Piece} {cs : List Char}
    (h : chars? (.char c :: ps) = some cs) : ∃ ds, chars? ps = some ds ∧ cs = c :: ds := by
  obtain ⟨ds, hd, rfl⟩ := Option.map_eq_some_iff.mp h
  exact ⟨ds, hd, rfl⟩

/-- Only encoded texts are decoded. -/
theorem eq_encode_of_decode {bs : Bytes} {cs : List Char} (h : decode bs = some cs) :
    bs = encode cs := by
  unfold decode at h
  fun_induction pieces bs generalizing cs with
  | case1 =>
    simp only [Piece.chars?, Option.some.injEq] at h
    simp [← h, encode]
  | case2 a r ha ih =>
    obtain ⟨ds, hd, rfl⟩ := Piece.chars?_char_cons h
    simp [encode_cons, encodeChar_one ha, ← ih hd]
  | case5 a _ h1 h2 b r hb ih =>
    obtain ⟨ds, hd, rfl⟩ := Piece.chars?_char_cons h
    simp [encode_cons, encodeChar_two h1 h2 hb, ← ih hd]
  | case9 a _ _ h1 h2 b hb c r hc ih =>
    obtain ⟨ds, hd, rfl⟩ := Piece.chars?_char_cons h
    simp [encode_cons, encodeChar_three h1 h2 hb hc, ← ih hd]
  | case15 a _ _ _ h1 h2 b hb c hc d r hd' ih =>
    obtain ⟨ds, hd, rfl⟩ := Piece.chars?_char_cons h
    simp [encode_cons, encodeChar_four h1 h2 hb hc hd', ← ih hd]
  | case3 | case4 | case6 | case7 | case8 | case10 | case11 | case12 | case13 | case14 | case16
  | case17 | case18 | case19 => simp [Piece.chars?] at h

theorem decode_eq_some_iff {bs : Bytes} {cs : List Char} : decode bs = some cs ↔ bs = encode cs :=
  ⟨eq_encode_of_decode, fun h => h ▸ decode_encode cs⟩

/-- A string is read from its own bytes and from no others. -/
theorem toString?_eq_some_iff {bs : Bytes} {s : String} :
    toString? bs = some s ↔ bs = ofString s := by
  constructor
  · intro h
    obtain ⟨cs, hc, rfl⟩ := Option.map_eq_some_iff.mp h
    simp [ofString, eq_encode_of_decode hc]
  · rintro rfl
    exact toString?_ofString s

/-- Different strings have different bytes. -/
theorem ofString_injective {s t : String} (h : ofString s = ofString t) : s = t := by
  have hs := toString?_ofString s
  rw [h, toString?_ofString] at hs
  exact (Option.some.inj hs).symm

/-! ## Texts cut and joined -/

theorem isSecondOfThree_of_not_tail {a b : UInt8} (h : isTail b = false) :
    isSecondOfThree a b = false := by
  rw [Bool.eq_false_iff] at h ⊢
  intro hs
  obtain ⟨h1, h2, -⟩ := bounds_of_isSecondOfThree hs
  exact h (isTail_iff.mpr ⟨h1, h2⟩)

theorem isSecondOfFour_of_not_tail {a b : UInt8} (h : isTail b = false) :
    isSecondOfFour a b = false := by
  rw [Bool.eq_false_iff] at h ⊢
  intro hs
  obtain ⟨h1, h2, -⟩ := bounds_of_isSecondOfFour hs
  exact h (isTail_iff.mpr ⟨h1, h2⟩)

/-- A byte that continues no character starts a piece of its own. -/
theorem pieces_append_cons {b : UInt8} (hb : isTail b = false) (xs ys : Bytes) :
    pieces (xs ++ b :: ys) = pieces xs ++ pieces (b :: ys) := by
  have h3 (a : UInt8) := isSecondOfThree_of_not_tail (a := a) hb
  have h4 (a : UInt8) := isSecondOfFour_of_not_tail (a := a) hb
  fun_induction pieces xs with
  | case1 => rfl
  | case2 | case3 | case4 | case5 | case7 | case8 | case9 | case12 | case13 | case14 | case15
  | case19 =>
    rw [List.cons_append, pieces.eq_def (_ :: _)]
    simp [*]
  | case6 | case10 | case11 | case16 | case17 | case18 =>
    -- The byte that breaks a character off starts the next piece.
    simp only [List.cons_append] at *
    rw [pieces.eq_def (_ :: _)]
    simp [*]

theorem Piece.chars?_append {ps qs : List Piece} {cs : List Char}
    (h : chars? (ps ++ qs) = some cs) :
    ∃ as bs, chars? ps = some as ∧ chars? qs = some bs ∧ cs = as ++ bs := by
  induction ps generalizing cs with
  | nil => exact ⟨[], cs, rfl, h, rfl⟩
  | cons p ps ih =>
    cases p with
    | malformed => cases h
    | char c =>
      obtain ⟨ds, hd, rfl⟩ := chars?_char_cons h
      obtain ⟨as, bs, ha, hb, rfl⟩ := ih hd
      exact ⟨c :: as, bs, by simp [chars?, ha], hb, rfl⟩

/-- The bytes are those of a text. -/
def WellFormed (bs : Bytes) : Prop := ∃ cs, decode bs = some cs

theorem wellFormed_encode (cs : List Char) : WellFormed (encode cs) := ⟨cs, decode_encode cs⟩

theorem WellFormed.append {xs ys : Bytes} (hx : WellFormed xs) (hy : WellFormed ys) :
    WellFormed (xs ++ ys) := by
  obtain ⟨cs, hc⟩ := hx
  obtain ⟨ds, hd⟩ := hy
  rw [eq_encode_of_decode hc, eq_encode_of_decode hd, encode, encode, ← List.flatMap_append]
  exact wellFormed_encode (cs ++ ds)

/-- Bytes below 0x80 are characters of their own. -/
theorem wellFormed_of_ascii {bs : Bytes} (h : ∀ b ∈ bs, b < 0x80) : WellFormed bs := by
  induction bs with
  | nil => exact wellFormed_encode []
  | cons b bs ih =>
    obtain ⟨hb, hbs⟩ := List.forall_mem_cons.mp h
    have hone : WellFormed [b] := ⟨[Char.ofNat b.toNat], by
      rw [decode_eq_some_iff, encode_cons, encodeChar_one hb]
      rfl⟩
    exact hone.append (ih hbs)

/-- The bytes of a character start with one that continues none. -/
theorem encodeChar_eq_cons (c : Char) :
    ∃ b bs, String.utf8EncodeChar c = b :: bs ∧ isTail b = false := by
  have hv : c.val.toNat < 0x110000 := by
    have := c.valid
    simp only [UInt32.isValidChar, Nat.isValidChar] at this
    omega
  simp only [← Bool.not_eq_true, isTail_iff]
  unfold String.utf8EncodeChar
  dsimp only
  generalize c.val.toNat = v at hv
  split
  · exact ⟨_, _, rfl, by simp; omega⟩
  · split
    · exact ⟨_, _, rfl, by simp; omega⟩
    · split
      · exact ⟨_, _, rfl, by simp; omega⟩
      · exact ⟨_, _, rfl, by simp; omega⟩

/-- A text may be cut on both sides of a character. -/
theorem wellFormed_of_append_encodeChar {xs ys : Bytes} {c : Char}
    (h : WellFormed (xs ++ (String.utf8EncodeChar c ++ ys))) : WellFormed xs ∧ WellFormed ys := by
  obtain ⟨cs, hcs⟩ := h
  obtain ⟨b, bs, hc, hb⟩ := encodeChar_eq_cons c
  rw [decode, hc, List.cons_append, pieces_append_cons hb, ← List.cons_append, ← hc,
    pieces_encodeChar_append] at hcs
  obtain ⟨as, ds, hxs, hys, -⟩ := Piece.chars?_append hcs
  obtain ⟨es, hes, -⟩ := Piece.chars?_char_cons hys
  exact ⟨⟨as, hxs⟩, ⟨es, hes⟩⟩

end CniPlugin.Text.Utf8
