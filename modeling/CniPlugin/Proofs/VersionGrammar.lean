import CniPlugin.Version
import CniPlugin.Proofs.FirstFailure
/-!
# The grammar of versions

A text is a version exactly if it is one to three numerals with points between them, each of which
fits in 64 bits.  A numeral is one or more ASCII digits, and may start with any number of zeros.
Any other text is refused for one reason: it is empty, or it has too many parts, whatever they are,
or one of its parts is no such numeral; then the first of them is named.

Results:
1. `numeral_iff`, `number?_eq_some_iff`, `number?_eq_none_iff`: which parts are read, and as what.
2. `numbers_cons_eq_ok_iff`, `numbers_eq_error_iff`: all parts, one after the other.
3. `parse_eq_ok_iff`, `misspells_of_parse`, `parse_of_misspells`: the whole text.
4. `parse_eq_iff_grammar`: both together.
-/

namespace CniPlugin.Version

/-! ## Definitions -/

/-- The characters are one or more decimal digits, and what they stand for as a number. -/
inductive Numeral : List Char → Nat → Prop
  | digit {d : Nat} : d < 10 → Numeral [d.digitChar] d
  | append {cs : List Char} {n d : Nat} : Numeral cs n → d < 10 →
      Numeral (cs ++ [d.digitChar]) (10 * n + d)

/-- The parts spell a version.  There are one to three of them, each of a number of 64 bits; numbers
that are left out are zero. -/
inductive Spells : List (List Char) → Version → Prop
  | major {a : List Char} {x : UInt64} : Numeral a x.toNat → Spells [a] ⟨x, 0, 0⟩
  | minor {a b : List Char} {x y : UInt64} : Numeral a x.toNat → Numeral b y.toNat →
      Spells [a, b] ⟨x, y, 0⟩
  | patch {a b c : List Char} {x y z : UInt64} : Numeral a x.toNat → Numeral b y.toNat →
      Numeral c z.toNat → Spells [a, b, c] ⟨x, y, z⟩

/-- Why a part is no number of 64 bits. -/
inductive NoNumber : List Char → Prop
  | empty : NoNumber []
  | noDigit {part : List Char} {c : Char} : c ∈ part → c.isDigit = false → NoNumber part
  | tooLarge {part : List Char} {n : Nat} : Numeral part n → UInt64.size ≤ n → NoNumber part

/-- Why a text is no version.  Every reason rules out those above it. -/
inductive Misspells (text : String) : Malformed → Prop
  | empty : text = "" → Misspells text (.empty text)
  /-- There are more than three parts, whatever they are. -/
  | tooManyParts {parts : List (List Char)} : Text.Divided '.' text.toList parts →
      3 < parts.length → Misspells text (.tooManyParts text)
  /-- A part is no number, and those in front of it are. -/
  | invalidPart {before after : List (List Char)} {part : List Char} : text ≠ "" →
      Text.Divided '.' text.toList (before ++ part :: after) →
      (before ++ part :: after).length ≤ 3 →
      (∀ other ∈ before, ∃ x : UInt64, Numeral other x.toNat) → NoNumber part →
      Misspells text (.invalidPart text (String.ofList part))

/-! ## Numerals -/

theorem exists_digit {c : Char} (h : c.isDigit = true) :
    ∃ d < 10, c = d.digitChar ∧ c.toNat - '0'.toNat = d := by
  obtain ⟨hlow, hhigh⟩ : 48 ≤ c.toNat ∧ c.toNat ≤ 57 := by
    simpa [Char.isDigit, UInt32.le_iff_toNat_le] using h
  have hchars : ∀ n ≤ 57, 48 ≤ n → n - 48 < 10 ∧ Char.ofNat n = (n - 48).digitChar := by decide
  obtain ⟨hlt, hchar⟩ := hchars c.toNat hhigh hlow
  refine ⟨c.toNat - 48, hlt, ?_, rfl⟩
  rw [← hchar, Char.ofNat_toNat]

/-- Digits behind a numeral make a longer numeral. -/
theorem Numeral.append_digits {cs ds : List Char} {n : Nat} (h : Numeral cs n)
    (hd : ∀ c ∈ ds, c.isDigit = true) : Numeral (cs ++ ds) (Nat.ofDigitChars 10 ds n) := by
  induction ds generalizing cs n with
  | nil => simpa using h
  | cons c ds ih =>
    rw [List.forall_mem_cons] at hd
    obtain ⟨d, hlt, hc, hvalue⟩ := exists_digit hd.1
    rw [List.append_cons, Nat.ofDigitChars_cons, hvalue, hc]
    exact ih (h.append hlt) hd.2

theorem numeral_iff {cs : List Char} {n : Nat} :
    Numeral cs n ↔ isNumeral cs = true ∧ Nat.ofDigitChars 10 cs 0 = n := by
  constructor
  · intro h
    induction h with
    | digit hd => simp [isNumeral, Nat.ofDigitChars_cons_digitChar_of_lt_ten, hd]
    | append _ hd ih =>
      simp only [isNumeral, Bool.and_eq_true] at ih
      simp [isNumeral, Nat.ofDigitChars_append, Nat.ofDigitChars_cons_digitChar_of_lt_ten, hd, ih]
  · -- A numeral grows at its end, but digits are read from the front: start with the first one.
    rintro ⟨h, rfl⟩
    cases cs with
    | nil => cases h
    | cons c cs =>
      simp only [isNumeral, List.isEmpty_cons, Bool.not_false, Bool.true_and,
        List.all_eq_true, List.forall_mem_cons] at h
      obtain ⟨d, hlt, hc, hvalue⟩ := exists_digit h.1
      rw [Nat.ofDigitChars_cons, hvalue, hc, Nat.mul_zero, Nat.zero_add]
      exact (Numeral.digit hlt).append_digits h.2

/-- A numeral stands for one number only. -/
theorem Numeral.unique {cs : List Char} {m n : Nat} (hm : Numeral cs m) (hn : Numeral cs n) :
    m = n :=
  (numeral_iff.mp hm).2.symm.trans (numeral_iff.mp hn).2

/-! ## Parts -/

theorem number?_eq_some_iff {part : List Char} {x : UInt64} :
    number? part = some x ↔ Numeral part x.toNat := by
  rw [numeral_iff, number?]
  split
  · next h =>
    dsimp only
    split
    · next hlt =>
      rw [Option.some.injEq, ← UInt64.toNat_inj, UInt64.toNat_ofNat_of_lt' hlt]
      simp [h]
    · next hge =>
      simp only [h, true_and, reduceCtorEq, false_iff]
      exact fun heq => hge (heq ▸ x.toNat_lt)
  · next h => simp [h]

theorem number?_eq_none_iff {part : List Char} : number? part = none ↔ NoNumber part := by
  constructor
  · intro h
    cases hnumeral : isNumeral part with
    | true =>
      refine .tooLarge (numeral_iff.mpr ⟨hnumeral, rfl⟩) ?_
      simpa [number?, hnumeral] using h
    | false =>
      cases part with
      | nil => exact .empty
      | cons c part =>
        simp only [isNumeral, List.isEmpty_cons, Bool.not_false, Bool.true_and,
          List.all_eq_false] at hnumeral
        obtain ⟨d, hmem, hd⟩ := hnumeral
        exact .noDigit hmem (Bool.eq_false_iff.mpr hd)
  · intro h
    rw [Option.eq_none_iff_forall_ne_some]
    intro x hx
    have hx := number?_eq_some_iff.mp hx
    obtain ⟨hnumeral, -⟩ := numeral_iff.mp hx
    cases h with
    | empty => cases hnumeral
    | noDigit hmem hd =>
      simp only [isNumeral, Bool.and_eq_true, List.all_eq_true] at hnumeral
      rw [hnumeral.2 _ hmem] at hd
      cases hd
    | tooLarge hn hle =>
      rw [hn.unique hx] at hle
      exact absurd x.toNat_lt_size (Nat.not_lt.mpr hle)

theorem numbers_eq_mapM (parts : List (List Char)) :
    numbers parts = parts.mapM (orBlame number? id) := by
  induction parts with
  | nil => rfl
  | cons part parts ih =>
    rw [numbers, List.mapM_cons, ← ih, orBlame]
    cases number? part with
    | none => rfl
    | some x => cases numbers parts <;> rfl

theorem numbers_cons_eq_ok_iff {part : List Char} {parts : List (List Char)} {xs : List UInt64} :
    numbers (part :: parts) = .ok xs ↔
      ∃ x ys, xs = x :: ys ∧ Numeral part x.toNat ∧ numbers parts = .ok ys := by
  simp only [numbers_eq_mapM, mapM_cons_eq_ok_iff, orBlame_eq_ok_iff, number?_eq_some_iff]

/-- The first part that is no number is the failure. -/
theorem numbers_eq_error_iff {parts : List (List Char)} {part : List Char} :
    numbers parts = .error part ↔ ∃ before after, parts = before ++ part :: after ∧
      (∀ other ∈ before, ∃ x : UInt64, Numeral other x.toNat) ∧ NoNumber part := by
  simp only [numbers_eq_mapM, mapM_eq_error_iff, orBlame_eq_ok_iff, orBlame_eq_error_iff,
    number?_eq_some_iff, number?_eq_none_iff]
  constructor
  · rintro ⟨before, _, after, hparts, hbefore, hpart, rfl⟩
    exact ⟨before, after, hparts, hbefore, hpart⟩
  · rintro ⟨before, after, hparts, hbefore, hpart⟩
    exact ⟨before, part, after, hparts, hbefore, hpart, rfl⟩

/-! ## Texts -/

theorem spells_of_numbers {parts : List (List Char)} {xs : List UInt64} (hne : parts ≠ [])
    (hle : parts.length ≤ 3) (h : numbers parts = .ok xs) : Spells parts (ofNumbers xs) := by
  rcases parts with _ | ⟨a, _ | ⟨b, _ | ⟨c, _ | ⟨d, parts⟩⟩⟩⟩
  · exact absurd rfl hne
  · obtain ⟨x, _, rfl, hx, hend⟩ := numbers_cons_eq_ok_iff.mp h
    cases hend
    exact .major hx
  · obtain ⟨x, _, rfl, hx, h⟩ := numbers_cons_eq_ok_iff.mp h
    obtain ⟨y, _, rfl, hy, hend⟩ := numbers_cons_eq_ok_iff.mp h
    cases hend
    exact .minor hx hy
  · obtain ⟨x, _, rfl, hx, h⟩ := numbers_cons_eq_ok_iff.mp h
    obtain ⟨y, _, rfl, hy, h⟩ := numbers_cons_eq_ok_iff.mp h
    obtain ⟨z, _, rfl, hz, hend⟩ := numbers_cons_eq_ok_iff.mp h
    cases hend
    exact .patch hx hy hz
  · exact absurd hle (Nat.not_le.mpr (Nat.le_add_left 4 parts.length))

theorem numbers_of_spells {parts : List (List Char)} {v : Version} (h : Spells parts v) :
    parts.length ≤ 3 ∧ ∃ xs, numbers parts = .ok xs ∧ ofNumbers xs = v := by
  cases h with
  | @major a x hx =>
    refine ⟨by simp, [x], ?_, rfl⟩
    exact numbers_cons_eq_ok_iff.mpr ⟨x, [], rfl, hx, rfl⟩
  | @minor a b x y hx hy =>
    refine ⟨by simp, [x, y], ?_, rfl⟩
    exact numbers_cons_eq_ok_iff.mpr ⟨x, [y], rfl, hx,
      numbers_cons_eq_ok_iff.mpr ⟨y, [], rfl, hy, rfl⟩⟩
  | @patch a b c x y z hx hy hz =>
    refine ⟨by simp, [x, y, z], ?_, rfl⟩
    exact numbers_cons_eq_ok_iff.mpr ⟨x, [y, z], rfl, hx,
      numbers_cons_eq_ok_iff.mpr ⟨y, [z], rfl, hy,
        numbers_cons_eq_ok_iff.mpr ⟨z, [], rfl, hz, rfl⟩⟩⟩

/-- A text that is not empty is read by its parts. -/
theorem parse_of_divided {text : String} {parts : List (List Char)} (hne : text ≠ "")
    (hd : Text.Divided '.' text.toList parts) :
    parse text =
      if 3 < parts.length then .error (.tooManyParts text)
      else
        match numbers parts with
        | .error part => .error (.invalidPart text (String.ofList part))
        | .ok xs => .ok (ofNumbers xs) := by
  have hchars : text.toList ≠ [] := fun he => hne (String.toList_eq_nil_iff.mp he)
  obtain rfl := Text.split_eq_iff.mpr hd
  exact if_neg hchars

/-- The empty text is one empty part. -/
theorem ne_empty_of_divided {text : String} {parts : List (List Char)}
    (hd : Text.Divided '.' text.toList parts) (h : parts ≠ [[]]) : text ≠ "" := by
  rintro rfl
  exact h (Text.split_eq_iff.mpr hd).symm

theorem parse_eq_ok_iff {text : String} {v : Version} :
    parse text = .ok v ↔ ∃ parts, Text.Divided '.' text.toList parts ∧ Spells parts v := by
  constructor
  · intro h
    by_cases hne : text = ""
    · subst hne
      cases h
    · have hd := Text.divided_split '.' text.toList
      rw [parse_of_divided hne hd] at h
      split at h
      · cases h
      · next hle =>
        split at h
        · cases h
        · next xs hxs =>
          cases h
          exact ⟨_, hd, spells_of_numbers hd.ne_nil (Nat.le_of_not_lt hle) hxs⟩
  · rintro ⟨parts, hd, hs⟩
    obtain ⟨hle, xs, hxs, rfl⟩ := numbers_of_spells hs
    -- An empty part is no number, so the text is not empty.
    have hempty : parts ≠ [[]] := by
      rintro rfl
      cases hxs
    rw [parse_of_divided (ne_empty_of_divided hd hempty) hd, if_neg (Nat.not_lt.mpr hle), hxs]

theorem misspells_of_parse {text : String} {e : Malformed} (h : parse text = .error e) :
    Misspells text e := by
  by_cases hne : text = ""
  · subst hne
    cases h
    exact .empty rfl
  · have hd := Text.divided_split '.' text.toList
    rw [parse_of_divided hne hd] at h
    split at h
    · next hmany =>
      cases h
      exact .tooManyParts hd hmany
    · next hle =>
      split at h
      · next part hpart =>
        cases h
        obtain ⟨before, after, hparts, hbefore, hbad⟩ := numbers_eq_error_iff.mp hpart
        rw [hparts] at hd hle
        exact .invalidPart hne hd (Nat.le_of_not_lt hle) hbefore hbad
      · cases h

theorem parse_of_misspells {text : String} {e : Malformed} (h : Misspells text e) :
    parse text = .error e := by
  cases h with
  | empty he =>
    subst he
    rfl
  | @tooManyParts parts hd hmany =>
    have hempty : parts ≠ [[]] := by
      rintro rfl
      simp at hmany
    rw [parse_of_divided (ne_empty_of_divided hd hempty) hd, if_pos hmany]
  | @invalidPart before after part hne hd hle hbefore hbad =>
    have hpart : numbers (before ++ part :: after) = .error part :=
      numbers_eq_error_iff.mpr ⟨before, after, rfl, hbefore, hbad⟩
    rw [parse_of_divided hne hd, if_neg (Nat.not_lt.mpr hle), hpart]

/-- A text is read as a version exactly if its parts spell that version, and is refused exactly for
the first reason for which they spell none. -/
theorem parse_eq_iff_grammar (text : String) :
    (∀ v, parse text = .ok v ↔ ∃ parts, Text.Divided '.' text.toList parts ∧ Spells parts v) ∧
      ∀ e, parse text = .error e ↔ Misspells text e := by
  refine ⟨fun v => parse_eq_ok_iff, fun e => ⟨misspells_of_parse, parse_of_misspells⟩⟩

-- Leading zeros do not count towards the 64 bits, and a sign is no digit.
example : parse "00000000000000000000001.018446744073709551615" =
    .ok ⟨1, 18446744073709551615, 0⟩ := by rfl
example : parse "1.+2.x" = .error (.invalidPart "1.+2.x" "+2") := by rfl

end CniPlugin.Version
