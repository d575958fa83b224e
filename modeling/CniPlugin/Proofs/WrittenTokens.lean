import CniPlugin.Json.Writer
import CniPlugin.Proofs.ReaderSteps
/-!
# Written tokens are read back

The writer puts quotes around a string and escapes what cannot stand between them; an integer it
writes in decimal.  Each is read back as what it was, whatever stands behind it, as long as that
cannot be taken for more of a numeral.

Results:
1. `numberAfterSign_decimal`: a decimal that fits in 64 bits is read back.
2. `textBytes_escapeChar`, `textBody_escaped`: a string is read back, whatever its characters.
3. `typedText_takes`, `typedWord_takes`: so are values of a known kind, behind any blanks.
-/

namespace CniPlugin.Json

/-! ## What stands behind a value -/

/-- Nothing stands behind a value, or a blank or punctuation. -/
def Follows (tail : Bytes) : Prop :=
  ∀ b r, tail = b :: r → isBlank b = true ∨ b = 0x2C ∨ b = 0x5D ∨ b = 0x7D

/-- What stands behind a value is no part of a numeral. -/
theorem Follows.cases {tail : Bytes} (h : Follows tail) :
    tail = [] ∨ ∃ b r, tail = b :: r ∧ isDigit b = false ∧ b ≠ 0x2E ∧ b ≠ 0x65 ∧ b ≠ 0x45 := by
  cases tail with
  | nil => exact .inl rfl
  | cons b r =>
    refine .inr ⟨b, r, rfl, ?_⟩
    have hb := h b r rfl
    simp only [isBlank, Bool.or_eq_true, decide_eq_true_eq] at hb
    rcases hb with (((rfl | rfl) | rfl) | rfl) | rfl | rfl | rfl <;> decide

theorem follows_comma (r : Bytes) : Follows (0x2C :: r) := by
  intro b t h
  cases h
  exact .inr (.inl rfl)

/-! ## Decimals -/

/-- The digits of a number. -/
def decimal (n : Nat) : Bytes := Text.Utf8.encode (Nat.toDigits 10 n)

/-- The byte of a digit. -/
def digit (d : Nat) : UInt8 := UInt8.ofNat (0x30 + d)

theorem encode_digitChar : ∀ d < 10, Text.Utf8.encode [d.digitChar] = [digit d] := by decide

theorem isDigit_digit : ∀ d < 10, isDigit (digit d) = true := by decide

theorem digitValue_digit : ∀ d < 10, digitValue (digit d) = d := by decide

theorem digit_ne_zero : ∀ d < 10, d ≠ 0 → digit d ≠ 0x30 := by decide

theorem decimal_of_lt {n : Nat} (h : n < 10) : decimal n = [digit n] := by
  rw [decimal, Nat.toDigits_of_lt_base h, encode_digitChar n h]

theorem decimal_of_ge {n : Nat} (h : 10 ≤ n) :
    decimal n = decimal (n / 10) ++ [digit (n % 10)] := by
  rw [decimal, Nat.toDigits_of_base_le (by decide) h, Text.Utf8.encode, List.flatMap_append,
    ← encode_digitChar (n % 10) (Nat.mod_lt n (by decide))]
  rfl

/-- A decimal is a zero alone, or digits that do not start with zero. -/
theorem decimal_cases (n : Nat) :
    n = 0 ∧ decimal n = [0x30] ∨
      ∃ d ds, decimal n = d :: ds ∧ d ≠ 0x30 ∧ isDigit d = true ∧ ∀ x ∈ ds, isDigit x = true := by
  -- The first digit is that of the number without its last digit.
  induction n using Nat.strongRecOn with
  | _ n ih =>
    by_cases hlt : n < 10
    · by_cases hz : n = 0
      · subst hz
        exact .inl ⟨rfl, rfl⟩
      · exact .inr ⟨digit n, [], decimal_of_lt hlt, digit_ne_zero n hlt hz, isDigit_digit n hlt,
          by simp⟩
    · have hmod := Nat.mod_lt n (show 0 < 10 by decide)
      rcases ih (n / 10) (by omega) with ⟨hz, -⟩ | ⟨d, ds, hd, hne, hdigit, hds⟩
      · omega
      · refine .inr ⟨d, ds ++ [digit (n % 10)], ?_, hne, hdigit, ?_⟩
        · rw [decimal_of_ge (by omega), hd]
          rfl
        · intro x hx
          rcases List.mem_append.mp hx with hx | hx
          · exact hds x hx
          · rw [List.mem_singleton.mp hx]
            exact isDigit_digit _ hmod

theorem absorb_append {a m : Nat} {xs : Bytes} (h : absorb a xs = (m, 0)) (ys : Bytes) :
    absorb a (xs ++ ys) = absorb m ys := by
  induction xs generalizing a with
  | nil =>
    cases h
    rfl
  | cons x xs ih =>
    rw [absorb] at h
    rw [List.cons_append, absorb]
    split at h
    · next hlt => rw [if_pos hlt, ih h]
    · cases h

/-- The digits of a number that fits in 64 bits are absorbed to that number. -/
theorem absorb_decimal {n : Nat} (h : n < UInt64.size) : absorb 0 (decimal n) = (n, 0) := by
  induction n using Nat.strongRecOn with
  | _ n ih =>
    by_cases hlt : n < 10
    · rw [decimal_of_lt hlt, absorb, digitValue_digit n hlt, Nat.zero_mul, Nat.zero_add, if_pos h]
      rfl
    · have hmod := Nat.mod_lt n (show 0 < 10 by decide)
      have hn : n / 10 * 10 + n % 10 = n := by omega
      rw [decimal_of_ge (by omega), absorb_append (ih (n / 10) (by omega) (by omega)), absorb,
        digitValue_digit _ hmod, hn, if_pos h]
      rfl

theorem takeWhile_digits {ds tail : Bytes} (hd : ∀ d ∈ ds, isDigit d = true) (ht : Follows tail) :
    (ds ++ tail).takeWhile isDigit = ds ∧ (ds ++ tail).dropWhile isDigit = tail := by
  rw [List.takeWhile_append_of_pos hd, List.dropWhile_append_of_pos hd]
  rcases ht.cases with rfl | ⟨b, r, rfl, hb, -⟩
  · simp
  · simp [hb]

theorem wholeDigits_decimal (atEnd : Cause) (n : Nat) {tail : Bytes} (ht : Follows tail) :
    wholeDigits atEnd (decimal n ++ tail) = .ok (decimal n, tail) := by
  rcases decimal_cases n with ⟨-, hd⟩ | ⟨d, ds, hd, hne, hdigit, hds⟩
  · rw [hd]
    rcases ht.cases with rfl | ⟨b, r, rfl, hb, -⟩
    · rfl
    · simp [wholeDigits, hb]
  · obtain ⟨htake, hdrop⟩ := takeWhile_digits hds ht
    rw [hd]
    simp [wholeDigits, hne, hdigit, htake, hdrop]

/-- A decimal is a numeral without fraction and exponent. -/
theorem numeral_decimal (negative : Bool) (atEnd : Cause) (n : Nat) {tail : Bytes}
    (ht : Follows tail) :
    numeral negative atEnd (decimal n ++ tail) = .ok (⟨negative, decimal n, [], none⟩, tail) := by
  have hfraction : fractionDigits atEnd tail = .ok ([], tail) := by
    rcases ht.cases with rfl | ⟨b, r, rfl, -, hpoint, -⟩
    · rfl
    · simp [fractionDigits, hpoint]
  have hexponent : exponentDigits atEnd tail = .ok (none, tail) := by
    rcases ht.cases with rfl | ⟨b, r, rfl, -, -, he, hE⟩
    · rfl
    · simp [exponentDigits, he, hE]
  rw [numeral, bind_of_ok (wholeDigits_decimal atEnd n ht), bind_of_ok hfraction,
    bind_of_ok hexponent]
  rfl

/-- A decimal that fits in 64 bits is read back. -/
theorem numberAfterSign_decimal (negative : Bool) {n : Nat} (h : n < UInt64.size) {tail : Bytes}
    (ht : Follows tail) :
    numberAfterSign negative (decimal n ++ tail) =
      .ok (Number.ofSignificand negative n, tail) := by
  have hvalue : Numeral.value ⟨negative, decimal n, [], none⟩ =
      .ok (Number.ofSignificand negative n) := by
    rw [Numeral.value, absorb_decimal h]
    rfl
  rw [numberAfterSign, numeral_decimal negative .endOfValue n ht]
  simp only [hvalue]

theorem ofSignificand_of_lt {n : Nat} (h : n < UInt64.size) :
    ∃ bounded, Number.ofSignificand false n = .integer n bounded := by
  have hb : -9223372036854775808 ≤ (n : Int) ∧ (n : Int) < 18446744073709551616 := by
    simp only [UInt64.size] at h
    omega
  refine ⟨hb, ?_⟩
  simp only [Number.ofSignificand, Bool.false_eq_true, if_false]
  exact dif_pos ⟨fun hn => hn.1, hb⟩

/-! ## Strings -/

theorem prepend_prepend (xs ys : Bytes) (r : Except Failure (Bytes × Bytes)) :
    prepend xs (prepend ys r) = prepend (xs ++ ys) r := by
  cases r with
  | error f => rfl
  | ok p => simp [prepend]

/-- Bytes that stand for themselves in a string. -/
def StandsForItself (b : UInt8) : Prop := b ≠ 0x22 ∧ b ≠ 0x5C ∧ ¬ b < 0x20

theorem textBytes_append {bs : Bytes} (h : ∀ b ∈ bs, StandsForItself b) (rest : Bytes) :
    textBytes (bs ++ rest) = prepend bs (textBytes rest) := by
  induction bs with
  | nil =>
    rw [List.nil_append]
    cases textBytes rest <;> rfl
  | cons b bs ih =>
    obtain ⟨h1, h2, h3⟩ := h b List.mem_cons_self
    rw [List.cons_append, textBytes_plain h1 h2 h3, ih fun x hx => h x (List.mem_cons_of_mem b hx),
      prepend_prepend]
    rfl

/-- The bytes of a character that is neither quote, backslash nor a control character. -/
theorem standsForItself_of_mem {c : Char} (hq : c ≠ '"') (hb : c ≠ '\\') (hc : ¬ c.toNat < 0x20)
    {b : UInt8} (h : b ∈ String.utf8EncodeChar c) : StandsForItself b := by
  -- Either the character is its own byte, or all its bytes lie above ASCII.
  have hbound : c.toNat < 0x80 ∧ b = UInt8.ofNat c.toNat ∨ 0x80 ≤ b.toNat := by
    unfold String.utf8EncodeChar at h
    dsimp only at h
    simp only [Char.toNat]
    split at h
    · exact .inl ⟨by omega, List.mem_singleton.mp h⟩
    · refine .inr ?_
      split at h
      · simp only [List.mem_cons, List.not_mem_nil, or_false] at h
        rcases h with rfl | rfl <;> simp <;> omega
      · split at h <;> simp only [List.mem_cons, List.not_mem_nil, or_false] at h
        · rcases h with rfl | rfl | rfl <;> simp <;> omega
        · rcases h with rfl | rfl | rfl | rfl <;> simp <;> omega
  rcases hbound with ⟨hlt, rfl⟩ | hge
  · have hq' : c.toNat ≠ 0x22 := fun he => hq (Char.toNat_inj.mp he)
    have hb' : c.toNat ≠ 0x5C := fun he => hb (Char.toNat_inj.mp he)
    refine ⟨?_, ?_, ?_⟩ <;> simp [← UInt8.toNat_inj, UInt8.lt_iff_toNat_lt] <;> omega
  · refine ⟨?_, ?_, ?_⟩
    · rintro rfl
      exact absurd hge (by decide)
    · rintro rfl
      exact absurd hge (by decide)
    · rw [UInt8.lt_iff_toNat_lt]
      simp
      omega

theorem hexFour?_hexDigit : ∀ n < 0x20,
    hexFour? 0x30 0x30 (hexDigit (n / 16)) (hexDigit (n % 16)) = some n := by decide

/-- The escape of a character is undone. -/
theorem textBytes_escapeChar (c : Char) (rest : Bytes) :
    textBytes (escapeChar c ++ rest) = prepend (String.utf8EncodeChar c) (textBytes rest) := by
  unfold escapeChar
  -- Seven characters have an escape of one letter.
  iterate 7
    split
    · next h => rw [h]; exact textBytes_letter rfl rest
  split
  · next h =>
    have hlow : isLowSurrogate c.toNat = false := by
      simp [isLowSurrogate]
      omega
    have hhigh : isHighSurrogate c.toNat = false := by
      simp [isHighSurrogate]
      omega
    have hhex := textBytes_hex (hexFour?_hexDigit c.toNat h) hlow hhigh rest
    rw [Char.ofNat_toNat] at hhex
    exact hhex
  · next hq hb _ _ _ _ _ hc =>
    exact textBytes_append (fun b hmem => standsForItself_of_mem hq hb hc hmem) rest

theorem textBytes_escaped (cs : List Char) (rest : Bytes) :
    textBytes (cs.flatMap escapeChar ++ 0x22 :: rest) = .ok (Text.Utf8.encode cs, rest) := by
  induction cs with
  | nil => exact textBytes_quote rest
  | cons c cs ih =>
    rw [List.flatMap_cons, List.append_assoc, textBytes_escapeChar, ih]
    rfl

theorem quote_append (s : String) (rest : Bytes) :
    quote s ++ rest = 0x22 :: (s.toList.flatMap escapeChar ++ 0x22 :: rest) := by
  simp [quote]

/-- A written string is read back, whatever its characters and whatever follows. -/
theorem textBody_escaped (s : String) (rest : Bytes) :
    textBody (s.toList.flatMap escapeChar ++ 0x22 :: rest) = .ok (s, rest) := by
  rw [textBody, textBytes_escaped]
  simp only [Text.Utf8.decode_encode, String.ofList_toList]

/-! ## Values of a known kind -/

/-- The reader takes the text for the value, behind any blanks and whatever follows. -/
def Takes {α : Type} (reader : Reader α) (text : Bytes) (value : α) : Prop :=
  ∀ blanks tail, (∀ b ∈ blanks, isBlank b = true) → Follows tail →
    reader (blanks ++ (text ++ tail)) = .ok (value, tail)

theorem typedText_takes (expected : Expected) (s : String) :
    Takes (typedText expected) (quote s) s := by
  intro blanks tail hb _
  rw [typedText, skipBlanks_append hb, quote_append, skipBlanks_cons (by decide)]
  exact textBody_escaped s tail

theorem isBlank_of_isDigit {b : UInt8} (h : isDigit b = true) : isBlank b = false := by
  rw [Bool.eq_false_iff]
  intro hb
  simp only [isBlank, Bool.or_eq_true, decide_eq_true_eq] at hb
  rcases hb with ((rfl | rfl) | rfl) | rfl <;> exact absurd h (by decide)

theorem start_of_isDigit {b : UInt8} (h : isDigit b = true) : Start.of b = .digit := by
  have hne : ∀ x, isDigit x = false → b ≠ x := by
    rintro x hx rfl
    rw [h] at hx
    cases hx
  rw [Start.of, if_neg (hne _ (by decide)), if_neg (hne _ (by decide)),
    if_neg (hne _ (by decide)), if_neg (hne _ (by decide)), if_pos h]

/-- A decimal starts with a digit. -/
theorem decimal_eq_cons (n : Nat) : ∃ d ds, decimal n = d :: ds ∧ isDigit d = true := by
  rcases decimal_cases n with ⟨-, hd⟩ | ⟨d, ds, hd, -, hdigit, -⟩
  · exact ⟨0x30, [], hd, by decide⟩
  · exact ⟨d, ds, hd, hdigit⟩

theorem scalarText_ofWord (n : UInt32) : scalarText (ofWord n) = decimal n.toNat := by
  have hn : ¬ (n.toNat : Int) < 0 := by omega
  simp only [ofWord, scalarText, Number.text, if_neg hn, Int.natAbs_natCast]
  rfl

theorem typedWord_takes (n : UInt32) : Takes typedWord (scalarText (ofWord n)) n := by
  intro blanks tail hb ht
  have hlt : n.toNat < UInt64.size := Nat.lt_trans n.toNat_lt (by decide)
  obtain ⟨bounded, hs⟩ := ofSignificand_of_lt hlt
  have hread := numberAfterSign_decimal false hlt ht
  obtain ⟨d, ds, hd, hdigit⟩ := decimal_eq_cons n.toNat
  rw [hd, List.cons_append, hs] at hread
  rw [typedWord, skipBlanks_append hb, scalarText_ofWord, hd, List.cons_append,
    skipBlanks_cons (isBlank_of_isDigit hdigit)]
  simp only [start_of_isDigit hdigit]
  rw [bind_of_ok hread, wordOfNumber]
  have hword : 0 ≤ (n.toNat : Int) ∧ (n.toNat : Int) < (UInt32.size : Nat) := by
    have := n.toNat_lt
    simp only [UInt32.size]
    omega
  simp only [hword]
  simp

end CniPlugin.Json
