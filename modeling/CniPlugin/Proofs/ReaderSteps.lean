import CniPlugin.Json.Record
/-!
# Readers step by step

How a reader made of others runs, and what its success says of them; what blanks change, which is
nothing; and how many bytes a token takes.

Results:
1. `bind_eq_ok_iff`, `map_eq_ok_iff`: a composed reader succeeds exactly if its steps do.
2. `skipBlanks_of_cons`, `length_of_skipBlanks`: what is ahead after blanks.
3. `length_of_numeral`, `textBytes_hex`, `passText_hex`: what a token takes.
4. `nextItem_of_ok`, `nextKey_of_ok`, `inObject_eq_ok_iff`: what punctuation takes.
-/

namespace CniPlugin.Json

variable {α β : Type}

/-! ## Composed readers -/

/-- What has a value has succeeded with it. -/
theorem ok_of_toOption {ε : Type} {r : Except ε α} {a : α} (h : r.toOption = some a) :
    r = .ok a := by
  cases r with
  | error e => cases h
  | ok b => exact congrArg Except.ok (Option.some.inj h)

theorem bind_of_ok {x : Reader α} {s rest : Bytes} {a : α} (h : x s = .ok (a, rest))
    (f : α → Reader β) : (x >>= f) s = f a rest := by
  show Except.bind (x s) (fun p => f p.1 p.2) = _
  rw [h]
  rfl

theorem bind_of_error {x : Reader α} {s : Bytes} {e : Failure} (h : x s = .error e)
    (f : α → Reader β) : (x >>= f) s = .error e := by
  show Except.bind (x s) (fun p => f p.1 p.2) = _
  rw [h]
  rfl

theorem map_of_ok {x : Reader α} {s rest : Bytes} {a : α} (h : x s = .ok (a, rest))
    (f : α → β) : (f <$> x) s = .ok (f a, rest) := by
  show Except.bind (x s) (fun p => .ok (f p.1, p.2)) = _
  rw [h]
  rfl

theorem map_of_error {x : Reader α} {s : Bytes} {e : Failure} (h : x s = .error e)
    (f : α → β) : (f <$> x) s = .error e := by
  show Except.bind (x s) (fun p => .ok (f p.1, p.2)) = _
  rw [h]
  rfl

theorem bind_eq_ok_iff {x : Reader α} {f : α → Reader β} {s rest : Bytes} {b : β} :
    (x >>= f) s = .ok (b, rest) ↔
      ∃ a middle, x s = .ok (a, middle) ∧ f a middle = .ok (b, rest) := by
  cases hx : x s with
  | error e => simp [bind_of_error hx]
  | ok p =>
    rw [bind_of_ok hx]
    constructor
    · exact fun h => ⟨p.1, p.2, rfl, h⟩
    · rintro ⟨a, middle, ha, h⟩
      cases ha
      exact h

theorem map_eq_ok_iff {x : Reader α} {f : α → β} {s rest : Bytes} {b : β} :
    (f <$> x) s = .ok (b, rest) ↔ ∃ a, x s = .ok (a, rest) ∧ f a = b := by
  cases hx : x s with
  | error e => simp [map_of_error hx]
  | ok p =>
    rw [map_of_ok hx]
    constructor
    · intro h
      cases h
      exact ⟨p.1, rfl, rfl⟩
    · rintro ⟨a, ha, rfl⟩
      cases ha
      rfl

/-! ## Blanks -/

theorem length_skipBlanks_le (s : Bytes) : (skipBlanks s).length ≤ s.length :=
  (List.dropWhile_sublist isBlank).length_le

theorem length_of_skipBlanks {s r : Bytes} {b : UInt8} (h : skipBlanks s = b :: r) :
    r.length < s.length := by
  have hl := length_skipBlanks_le s
  rw [h, List.length_cons] at hl
  omega

theorem skipBlanks_cons {b : UInt8} (h : isBlank b = false) (r : Bytes) :
    skipBlanks (b :: r) = b :: r := by
  simp [skipBlanks, h]

/-- Blanks are skipped all at once. -/
theorem skipBlanks_of_cons {s r : Bytes} {b : UInt8} (h : skipBlanks s = b :: r) :
    skipBlanks (b :: r) = b :: r := by
  refine skipBlanks_cons ?_ r
  have hb := List.head?_dropWhile_not isBlank s
  rw [skipBlanks] at h
  rw [h] at hb
  simpa using hb

theorem skipBlanks_append {blanks : Bytes} (h : ∀ b ∈ blanks, isBlank b = true) (s : Bytes) :
    skipBlanks (blanks ++ s) = skipBlanks s :=
  List.dropWhile_append_of_pos h

/-! ## Words -/

theorem eq_append_of_word {es s rest : Bytes} (h : word es s = .ok ((), rest)) :
    s = es ++ rest := by
  induction es generalizing s with
  | nil =>
    simp only [word, Except.ok.injEq, Prod.mk.injEq, true_and] at h
    simp [h]
  | cons e es ih =>
    simp only [word] at h
    split at h
    · cases h
    · next b r =>
      split at h
      · next hb => simp [ih h, hb]
      · cases h

/-! ## Numerals -/

theorem length_of_wholeDigits {atEnd : Cause} {s rest digits : Bytes}
    (h : wholeDigits atEnd s = .ok (digits, rest)) : rest.length < s.length := by
  unfold wholeDigits at h
  split at h
  · cases h
  · next b r =>
    split at h
    · split at h
      · cases h
        simp
      · split at h <;> cases h
        simp
    · split at h <;> cases h
      have := (List.dropWhile_sublist isDigit (l := r)).length_le
      simp only [List.length_cons]
      omega

theorem length_of_fractionDigits {atEnd : Cause} {s rest digits : Bytes}
    (h : fractionDigits atEnd s = .ok (digits, rest)) : rest.length ≤ s.length := by
  unfold fractionDigits at h
  split at h
  · cases h
    simp
  · next b r =>
    split at h
    · split at h
      · cases h
      · next d r' =>
        split at h <;> cases h
        have := (List.dropWhile_sublist isDigit (l := r')).length_le
        simp only [List.length_cons]
        omega
    · cases h
      simp

theorem length_exponentSign_le (s : Bytes) : (exponentSign s).2.length ≤ s.length := by
  unfold exponentSign
  split
  · simp
  · split
    · simp
    · split <;> simp

theorem length_of_exponentDigits {atEnd : Cause} {s rest : Bytes}
    {digits : Option (Bool × Bytes)} (h : exponentDigits atEnd s = .ok (digits, rest)) :
    rest.length ≤ s.length := by
  unfold exponentDigits at h
  split at h
  · cases h
    simp
  · next b r =>
    have hs := length_exponentSign_le r
    split at h
    · split at h
      · cases h
      · next negative d r' hr =>
        rw [hr] at hs
        split at h <;> cases h
        have := (List.dropWhile_sublist isDigit (l := r')).length_le
        simp only [List.length_cons] at hs ⊢
        omega
    · cases h
      simp

/-- The cause for an input that ends inside a numeral is of no account for the others. -/
theorem numeral_of_ok {negative : Bool} {atEnd : Cause} {s rest : Bytes} {n : Numeral}
    (h : numeral negative atEnd s = .ok (n, rest)) (other : Cause) :
    numeral negative other s = .ok (n, rest) := by
  obtain ⟨whole, s₁, hw, h⟩ := bind_eq_ok_iff.mp h
  obtain ⟨fraction, s₂, hf, h⟩ := bind_eq_ok_iff.mp h
  obtain ⟨exponent, s₃, he, h⟩ := bind_eq_ok_iff.mp h
  -- The cause is only ever given where the input ends, and there no part succeeds.
  have hw' : wholeDigits other s = .ok (whole, s₁) := by
    unfold wholeDigits at hw ⊢
    split at hw <;> simp_all
  have hf' : fractionDigits other s₁ = .ok (fraction, s₂) := by
    unfold fractionDigits at hf ⊢
    split at hf <;> simp_all
    split at hf <;> simp_all
    split at hf <;> simp_all
  have he' : exponentDigits other s₂ = .ok (exponent, s₃) := by
    unfold exponentDigits at he ⊢
    split at he <;> simp_all
    split at he <;> simp_all
    split at he <;> simp_all
  exact bind_eq_ok_iff.mpr ⟨_, _, hw', bind_eq_ok_iff.mpr ⟨_, _, hf',
    bind_eq_ok_iff.mpr ⟨_, _, he', h⟩⟩⟩

theorem length_of_numeral {negative : Bool} {atEnd : Cause} {s rest : Bytes} {n : Numeral}
    (h : numeral negative atEnd s = .ok (n, rest)) : rest.length < s.length := by
  obtain ⟨whole, s₁, hw, h⟩ := bind_eq_ok_iff.mp h
  obtain ⟨fraction, s₂, hf, h⟩ := bind_eq_ok_iff.mp h
  obtain ⟨exponent, s₃, he, h⟩ := bind_eq_ok_iff.mp h
  cases h
  have h₁ := length_of_wholeDigits hw
  have h₂ := length_of_fractionDigits hf
  have h₃ := length_of_exponentDigits he
  omega

theorem numeral_of_numberAfterSign {negative : Bool} {s rest : Bytes} {n : Number}
    (h : numberAfterSign negative s = .ok (n, rest)) :
    ∃ m, numeral negative .endOfValue s = .ok (m, rest) := by
  unfold numberAfterSign at h
  split at h
  · cases h
  · next m r hm =>
    split at h <;> cases h
    exact ⟨m, hm⟩

/-! ## Strings -/

theorem textBytes_quote (r : Bytes) : textBytes (0x22 :: r) = .ok ([], r) := by
  rw [textBytes.eq_def]
  rfl

theorem textBytes_plain {b : UInt8} (h1 : b ≠ 0x22) (h2 : b ≠ 0x5C) (h3 : ¬ b < 0x20) (r : Bytes) :
    textBytes (b :: r) = prepend [b] (textBytes r) := by
  rw [textBytes.eq_def]
  simp [h1, h2, h3]

theorem textBytes_letter {e c : UInt8} (h : unescape? e = some c) (r : Bytes) :
    textBytes (0x5C :: e :: r) = prepend [c] (textBytes r) := by
  have he : e ≠ 0x75 := by
    rintro rfl
    cases h
  rw [textBytes.eq_def]
  simp [he, h]

theorem textBytes_hex {a b c d : UInt8} {n : Nat} (h : hexFour? a b c d = some n)
    (hl : isLowSurrogate n = false) (hh : isHighSurrogate n = false) (r : Bytes) :
    textBytes (0x5C :: 0x75 :: a :: b :: c :: d :: r) =
      prepend (String.utf8EncodeChar (Char.ofNat n)) (textBytes r) := by
  rw [textBytes.eq_def]
  simp [h, hl, hh]

theorem passText_quote (r : Bytes) : passText (0x22 :: r) = .ok ((), r) := by
  rw [passText.eq_def]
  rfl

theorem passText_plain {b : UInt8} (h1 : b ≠ 0x22) (h2 : b ≠ 0x5C) (h3 : ¬ b < 0x20) (r : Bytes) :
    passText (b :: r) = passText r := by
  rw [passText.eq_def]
  simp [h1, h2, h3]

theorem passText_letter {e c : UInt8} (h : unescape? e = some c) (r : Bytes) :
    passText (0x5C :: e :: r) = passText r := by
  have he : e ≠ 0x75 := by
    rintro rfl
    cases h
  rw [passText.eq_def]
  simp [he, h]

theorem passText_hex {a b c d : UInt8} {n : Nat} (h : hexFour? a b c d = some n) (r : Bytes) :
    passText (0x5C :: 0x75 :: a :: b :: c :: d :: r) = passText r := by
  rw [passText.eq_def]
  simp [h]

/-! ## Values of a known kind -/

/-- A value of the wrong kind is refused, whatever it is. -/
theorem wrongType_ne_ok {expected : Expected} {s rest : Bytes} {a : α} :
    wrongType expected s ≠ .ok (a, rest) := by
  intro h
  unfold wrongType at h
  split at h
  · cases h
  · next b r =>
    -- The first token is read to the end, and then refused.
    split at h
    case h_1 | h_2 | h_3 =>
      cases hw : word _ r with
      | error e => rw [hw] at h; cases h
      | ok p => rw [hw] at h; cases h
    case h_4 | h_5 =>
      cases hn : numberAfterSign _ _ with
      | error e => rw [hn] at h; cases h
      | ok p => rw [hn] at h; cases h
    case h_6 =>
      cases ht : textBody r with
      | error e => rw [ht] at h; cases h
      | ok p => rw [ht] at h; cases h
    case h_7 | h_8 | h_9 => cases h

theorem textBody_of_typedText {expected : Expected} {s rest : Bytes} {text : String}
    (h : typedText expected s = .ok (text, rest)) :
    ∃ r, skipBlanks s = 0x22 :: r ∧ textBody r = .ok (text, rest) := by
  unfold typedText at h
  split at h
  · cases h
  · next b r hs =>
    split at h
    · next hb => exact ⟨r, by rw [hs, hb], h⟩
    · exact absurd h wrongType_ne_ok

/-! ## Punctuation -/

theorem nextItem_of_ok {first more : Bool} {s rest : Bytes}
    (h : nextItem first s = .ok (more, rest)) :
    (more = false ∧ ∃ r, skipBlanks s = 0x5D :: r ∧ rest = 0x5D :: r) ∨
      (more = true ∧ first = true ∧ ∃ b r, b ≠ 0x5D ∧ skipBlanks s = b :: r ∧ rest = b :: r) ∨
      (more = true ∧ first = false ∧
        ∃ r c t, skipBlanks s = 0x2C :: r ∧ skipBlanks r = c :: t ∧ rest = c :: t) := by
  unfold nextItem at h
  split at h
  · cases h
  · next b r hs =>
    split at h
    · next hb =>
      cases h
      exact .inl ⟨rfl, r, by rw [hs, hb], by rw [hb]⟩
    · next hb =>
      split at h
      · next hf =>
        cases h
        exact .inr (.inl ⟨rfl, hf, b, r, hb, hs, rfl⟩)
      · next hf =>
        split at h
        · next hc =>
          split at h
          · cases h
          · next c t hr =>
            split at h <;> cases h
            exact .inr (.inr ⟨rfl, by simpa using hf, r, c, t, by rw [hs, hc], hr, rfl⟩)
        · cases h

theorem nextKey_of_ok {first : Bool} {s rest : Bytes} {key? : Option String}
    (h : nextKey first s = .ok (key?, rest)) :
    (key? = none ∧ ∃ r, skipBlanks s = 0x7D :: r ∧ rest = 0x7D :: r) ∨
      ∃ key, key? = some key ∧
        ((first = true ∧ ∃ r, skipBlanks s = 0x22 :: r ∧ textBody r = .ok (key, rest)) ∨
          (first = false ∧ ∃ r t, skipBlanks s = 0x2C :: r ∧ skipBlanks r = 0x22 :: t ∧
            textBody t = .ok (key, rest))) := by
  unfold nextKey at h
  split at h
  · cases h
  · next b r hs =>
    split at h
    · next hb =>
      cases h
      exact .inl ⟨rfl, r, by rw [hs, hb], by rw [hb]⟩
    · next hb =>
      split at h
      · next hf =>
        split at h
        · next hq =>
          obtain ⟨key, hk, rfl⟩ := map_eq_ok_iff.mp h
          exact .inr ⟨key, rfl, .inl ⟨hf, r, by rw [hs, hq], hk⟩⟩
        · cases h
      · next hf =>
        split at h
        · next hc =>
          split at h
          · cases h
          · next c t hr =>
            split at h
            · next hq =>
              obtain ⟨key, hk, rfl⟩ := map_eq_ok_iff.mp h
              exact .inr ⟨key, rfl,
                .inr ⟨by simpa using hf, r, t, by rw [hs, hc], by rw [hr, hq], hk⟩⟩
            · split at h <;> cases h
        · cases h

theorem colon_eq_ok_iff {s rest : Bytes} :
    colon s = .ok ((), rest) ↔ skipBlanks s = 0x3A :: rest := by
  unfold colon
  split
  · next hs => simp [hs]
  · next b r hs =>
    rw [hs]
    by_cases hb : b = 0x3A <;> simp [hb]

theorem closeList_eq_ok_iff {s rest : Bytes} :
    closeList s = .ok ((), rest) ↔ skipBlanks s = 0x5D :: rest := by
  unfold closeList
  split
  · next hs => simp [hs]
  · next b r hs =>
    rw [hs]
    split
    · next hb => simp [hb]
    · next hb =>
      constructor
      · intro h
        split at h
        · split at h <;> cases h
        · cases h
      · intro h
        cases h
        exact absurd rfl hb

theorem closeObject_eq_ok_iff {s rest : Bytes} :
    closeObject s = .ok ((), rest) ↔ skipBlanks s = 0x7D :: rest := by
  unfold closeObject
  split
  · next hs => simp [hs]
  · next b r hs =>
    rw [hs]
    by_cases hb : b = 0x7D <;> simp [hb]

theorem map_snd_eq_ok_iff {σ : Type} {r : Except Failure (Unit × Bytes)} {a acc : σ}
    {rest : Bytes} :
    ((fun p => (acc, p.2)) <$> r : Except Failure (σ × Bytes)) = .ok (a, rest) ↔
      acc = a ∧ r = .ok ((), rest) := by
  cases r with
  | error f => simp [Functor.map, Except.map]
  | ok p => simp [Functor.map, Except.map, Prod.ext_iff]

theorem inList_eq_ok_iff {σ : Type} {content : Reader σ} {s rest : Bytes} {a : σ} :
    inList content s = .ok (a, rest) ↔
      ∃ middle, content s = .ok (a, middle) ∧ skipBlanks middle = 0x5D :: rest := by
  unfold inList
  cases hc : content s with
  | error f => simp
  | ok p =>
    simp only [map_snd_eq_ok_iff, closeList_eq_ok_iff, Except.ok.injEq]
    constructor
    · rintro ⟨rfl, h⟩
      exact ⟨p.2, rfl, h⟩
    · rintro ⟨middle, rfl, h⟩
      exact ⟨rfl, h⟩

theorem inObject_eq_ok_iff {σ : Type} {content : Reader σ} {s rest : Bytes} {a : σ} :
    inObject content s = .ok (a, rest) ↔
      ∃ middle, content s = .ok (a, middle) ∧ skipBlanks middle = 0x7D :: rest := by
  unfold inObject
  cases hc : content s with
  | error f => simp
  | ok p =>
    simp only [map_snd_eq_ok_iff, closeObject_eq_ok_iff, Except.ok.injEq]
    constructor
    · rintro ⟨rfl, h⟩
      exact ⟨p.2, rfl, h⟩
    · rintro ⟨middle, rfl, h⟩
      exact ⟨rfl, h⟩

/-! ## Records -/

/-- The member of a known key is read if the field is not filled yet. -/
theorem readMember_eq_ok_iff {σ : Type} {fields : List (Field σ)} {stray : Stray σ} {key : String}
    {required : Bool} {get : σ → Option α} {set : α → σ → σ} {reader : Reader α}
    (hf : fields.find? (·.key = key) = some (.of key required get set reader))
    {draft out : σ} {s rest : Bytes} :
    readMember fields stray key draft s = .ok (out, rest) ↔
      get draft = none ∧ ∃ middle v, skipBlanks s = 0x3A :: middle ∧
        reader middle = .ok (v, rest) ∧ set v draft = out := by
  unfold readMember
  rw [hf]
  cases hd : get draft with
  | some v =>
    have hfilled : (Field.of key required get set reader).filled draft = true := by
      simp [Field.of, hd]
    simp [hfilled, failFloating]
  | none =>
    have hfilled : (Field.of key required get set reader).filled draft = false := by
      simp [Field.of, hd]
    simp only [hfilled, Bool.false_eq_true, if_false, true_and]
    constructor
    · intro h
      obtain ⟨⟨⟩, middle, hc, h⟩ := bind_eq_ok_iff.mp h
      obtain ⟨v, last, hv, h⟩ := bind_eq_ok_iff.mp h
      cases h
      exact ⟨middle, v, colon_eq_ok_iff.mp hc, hv, rfl⟩
    · rintro ⟨middle, v, hc, hv, rfl⟩
      exact bind_eq_ok_iff.mpr ⟨(), middle, colon_eq_ok_iff.mpr hc,
        bind_eq_ok_iff.mpr ⟨v, rest, hv, rfl⟩⟩

/-- The member of an unknown key is left to the caller. -/
theorem readMember_of_unknown {σ : Type} {fields : List (Field σ)} {stray : Stray σ} {key : String}
    (hf : fields.find? (·.key = key) = none) (draft : σ) :
    readMember fields stray key draft = stray key draft := by
  rw [readMember, hf]

/-! ## Documents -/

/-- A document is a value with nothing but blanks behind it. -/
theorem readDocument_eq_ok_iff {reader : Reader α} {input : Bytes} {a : α} :
    readDocument reader input = .ok a ↔
      ∃ rest, reader input = .ok (a, rest) ∧ skipBlanks rest = [] := by
  unfold readDocument endOfDocument
  cases reader input with
  | error f => simp
  | ok p =>
    obtain ⟨v, rest⟩ := p
    cases hs : skipBlanks rest with
    | nil =>
      simp only [hs, Except.ok.injEq, Prod.mk.injEq]
      constructor
      · rintro rfl
        exact ⟨rest, ⟨rfl, rfl⟩, hs⟩
      · rintro ⟨_, ⟨rfl, rfl⟩, -⟩
        rfl
    | cons b r =>
      simp only [hs, reduceCtorEq, Except.ok.injEq, Prod.mk.injEq, false_iff]
      rintro ⟨_, ⟨rfl, rfl⟩, h⟩
      rw [hs] at h
      cases h

end CniPlugin.Json
