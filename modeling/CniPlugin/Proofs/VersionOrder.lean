import CniPlugin.Proofs.ServedVersions
import CniPlugin.Proofs.VersionGrammar
/-!
# The order of version texts

A version has many texts, as zeros may lead a number and may be left out behind it.  One of them is
the form in which versions are written: all three numbers, none with a zero in front.  Texts are
compared by what they stand for, so on the texts that are versions the comparison is an order up to
spelling: neither of two texts is older than the other exactly if both are spellings of one version.

Results:
1. `plain_toDigits`, `eq_toDigits_of_plain`: a number has one numeral without leading zeros.
2. `parse_text`, `canonical_iff`: a version has one text in canonical form, and is read from it.
3. `le_refl`, `le_trans`, `le_total`, `le_antisymm`: versions are ordered by their numbers.
4. `atLeast_eq_iff`, `atLeast_eq_true_iff`: what the comparison of two texts answers.
5. `canonical_text_and_order`: all of it.
-/

namespace CniPlugin.Version

/-! ## Definitions -/

/-- No zero leads the part, unless the zero is all of it. -/
def Plain (part : List Char) : Prop := part.head? = some '0' → part = ['0']

/-- The text has all three parts, and none of them has leading zeros. -/
def Canonical (text : String) : Prop :=
  ∃ a b c, Text.Divided '.' text.toList [a, b, c] ∧ Plain a ∧ Plain b ∧ Plain c

/-- What the comparison of two texts answers.  The first text is read first. -/
inductive Compares (a b : String) : Except Malformed Bool → Prop
  | malformedFirst {e : Malformed} : parse a = .error e → Compares a b (.error e)
  | malformedSecond {v : Version} {e : Malformed} : parse a = .ok v → parse b = .error e →
      Compares a b (.error e)
  | notOlder {v w : Version} : parse a = .ok v → parse b = .ok w → w ≤ v → Compares a b (.ok true)
  | older {v w : Version} : parse a = .ok v → parse b = .ok w → ¬ w ≤ v → Compares a b (.ok false)

/-! ## Numerals without leading zeros -/

theorem numeral_toDigits (n : Nat) : Numeral (Nat.toDigits 10 n) n := by
  refine numeral_iff.mpr ⟨?_, Nat.ofDigitChars_ten_toDigits⟩
  have hdigits : (Nat.toDigits 10 n).all Char.isDigit = true :=
    List.all_eq_true.mpr fun c => Nat.isDigit_of_mem_toDigits (by decide) (by decide)
  simp [isNumeral, hdigits, Nat.toDigits_ne_nil]

theorem Numeral.ne_nil {cs : List Char} {n : Nat} (h : Numeral cs n) : cs ≠ [] := by
  cases h <;> simp

theorem Numeral.eq_zero {n : Nat} (h : Numeral ['0'] n) : n = 0 :=
  h.unique (.digit (d := 0) (by decide))

/-- A zero in front of more than one character is a leading one. -/
theorem plain_append_iff {cs : List Char} (hne : cs ≠ []) (c : Char) :
    Plain (cs ++ [c]) ↔ cs.head? ≠ some '0' := by
  obtain ⟨d, cs, rfl⟩ := List.exists_cons_of_ne_nil hne
  simp [Plain]

theorem plain_toDigits (n : Nat) : Plain (Nat.toDigits 10 n) := by
  induction n using Nat.strongRecOn with
  | ind n ih =>
    rcases Nat.lt_or_ge n 10 with hlt | hge
    · rw [Nat.toDigits_of_lt_base hlt]
      intro hzero
      simpa using hzero
    · rw [Nat.toDigits_of_base_le (by decide) hge, plain_append_iff Nat.toDigits_ne_nil]
      intro hzero
      -- Only the numeral of zero starts with a zero, and `n / 10` is not zero.
      have hnumeral := numeral_toDigits (n / 10)
      rw [ih (n / 10) (by omega) hzero] at hnumeral
      have := hnumeral.eq_zero
      omega

/-- Of the numerals of a number only one has no leading zeros. -/
theorem eq_toDigits_of_plain {cs : List Char} {n : Nat} (h : Numeral cs n) (hp : Plain cs) :
    cs = Nat.toDigits 10 n := by
  induction h with
  | digit hd => exact (Nat.toDigits_of_lt_base hd).symm
  | @append cs n d h hd ih =>
    have hhead := (plain_append_iff h.ne_nil _).mp hp
    have hcs := ih fun hzero => absurd hzero hhead
    have hpos : 0 < n := by
      rw [Nat.pos_iff_ne_zero]
      rintro rfl
      exact hhead (by rw [hcs, Nat.toDigits_zero, List.head?_cons])
    rw [hcs, ← Nat.toDigits_of_lt_base hd, Nat.toDigits_append_toDigits (by decide) hpos hd]

/-! ## The text of a version -/

theorem divided_text (v : Version) :
    Text.Divided '.' v.text.toList [Nat.toDigits 10 v.major.toNat, Nat.toDigits 10 v.minor.toNat,
      Nat.toDigits 10 v.patch.toNat] := by
  have hpoint (n : Nat) : '.' ∉ Nat.toDigits 10 n := fun hmem =>
    absurd (Nat.isDigit_of_mem_toDigits (by decide) (by decide) hmem) (by decide)
  refine ⟨by simp, by simp [hpoint], ?_⟩
  simp [text, chars, Text.join]

/-- A version is read from its text. -/
theorem parse_text (v : Version) : parse v.text = .ok v :=
  parse_eq_ok_iff.mpr ⟨_, divided_text v,
    .patch (numeral_toDigits _) (numeral_toDigits _) (numeral_toDigits _)⟩

theorem canonical_text (v : Version) : Canonical v.text :=
  ⟨_, _, _, divided_text v, plain_toDigits _, plain_toDigits _, plain_toDigits _⟩

theorem eq_text_of_canonical {text : String} {v : Version} (hc : Canonical text)
    (hv : parse text = .ok v) : text = v.text := by
  obtain ⟨a, b, c, hd, ha, hb, hc⟩ := hc
  obtain ⟨parts, hparts, hspells⟩ := parse_eq_ok_iff.mp hv
  obtain rfl : [a, b, c] = parts :=
    (Text.split_eq_iff.mpr hd).symm.trans (Text.split_eq_iff.mpr hparts)
  cases hspells with
  | patch hx hy hz =>
    rw [eq_toDigits_of_plain hx ha, eq_toDigits_of_plain hy hb, eq_toDigits_of_plain hz hc] at hd
    rw [← String.toList_inj, ← hd.joined, ← (divided_text _).joined]

/-- Of the texts of a version, its text is the only one in canonical form. -/
theorem canonical_iff {text : String} {v : Version} :
    Canonical text ∧ parse text = .ok v ↔ text = v.text := by
  refine ⟨fun h => eq_text_of_canonical h.1 h.2, ?_⟩
  rintro rfl
  exact ⟨canonical_text v, parse_text v⟩

theorem text_injective : Function.Injective text := by
  intro v w h
  have hv := parse_text v
  rw [h, parse_text w] at hv
  cases hv
  rfl

/-! ## The order of versions -/

theorem le_iff_toNat {v w : Version} : v ≤ w ↔ v.major.toNat < w.major.toNat ∨
    v.major.toNat = w.major.toNat ∧ (v.minor.toNat < w.minor.toNat ∨
      v.minor.toNat = w.minor.toNat ∧ v.patch.toNat ≤ w.patch.toNat) := by
  simp only [le_iff, UInt64.lt_iff_toNat_lt, UInt64.le_iff_toNat_le, ← UInt64.toNat_inj]

protected theorem le_refl (v : Version) : v ≤ v := by
  rw [le_iff_toNat]
  omega

protected theorem le_trans {u v w : Version} (h : u ≤ v) (h' : v ≤ w) : u ≤ w := by
  rw [le_iff_toNat] at *
  omega

protected theorem le_total (v w : Version) : v ≤ w ∨ w ≤ v := by
  rw [le_iff_toNat, le_iff_toNat]
  omega

protected theorem le_antisymm {v w : Version} (h : v ≤ w) (h' : w ≤ v) : v = w := by
  rw [le_iff_toNat] at h h'
  obtain ⟨a, b, c⟩ := v
  obtain ⟨x, y, z⟩ := w
  simp only [mk.injEq, ← UInt64.toNat_inj]
  dsimp only at h h'
  omega

/-! ## The comparison of texts -/

variable {a b c : String} {v w : Version}

theorem compares_atLeast (a b : String) : Compares a b (atLeast a b) := by
  cases ha : parse a with
  | error e =>
    rw [atLeast_of_error ha]
    exact .malformedFirst ha
  | ok v =>
    cases hb : parse b with
    | error e =>
      simp only [atLeast, ha, hb]
      exact .malformedSecond ha hb
    | ok w =>
      rw [atLeast_of_ok ha hb]
      cases hn : v.notOlder w with
      | true => exact .notOlder ha hb (notOlder_iff.mp hn)
      | false => exact .older ha hb fun h => by simp [notOlder_iff.mpr h] at hn

theorem atLeast_of_compares {result : Except Malformed Bool} (h : Compares a b result) :
    atLeast a b = result := by
  cases h with
  | malformedFirst ha => exact atLeast_of_error ha b
  | malformedSecond ha hb => simp only [atLeast, ha, hb]
  | notOlder ha hb hle => rw [atLeast_of_ok ha hb, notOlder_iff.mpr hle]
  | older ha hb hlt =>
    rw [atLeast_of_ok ha hb, Bool.eq_false_iff.mpr fun h => hlt (notOlder_iff.mp h)]

theorem atLeast_eq_iff {result : Except Malformed Bool} :
    atLeast a b = result ↔ Compares a b result := by
  refine ⟨?_, atLeast_of_compares⟩
  rintro rfl
  exact compares_atLeast a b

theorem atLeast_eq_true_iff :
    atLeast a b = .ok true ↔ ∃ v w, parse a = .ok v ∧ parse b = .ok w ∧ w ≤ v := by
  rw [atLeast_eq_iff]
  constructor
  · rintro ⟨⟩
    next v w ha hb hle => exact ⟨v, w, ha, hb, hle⟩
  · rintro ⟨v, w, ha, hb, hle⟩
    exact .notOlder ha hb hle

theorem atLeast_refl (ha : parse a = .ok v) : atLeast a a = .ok true :=
  atLeast_eq_true_iff.mpr ⟨v, v, ha, ha, v.le_refl⟩

theorem atLeast_trans (h : atLeast a b = .ok true) (h' : atLeast b c = .ok true) :
    atLeast a c = .ok true := by
  obtain ⟨u, v, ha, hb, hle⟩ := atLeast_eq_true_iff.mp h
  obtain ⟨v', w, hb', hc, hle'⟩ := atLeast_eq_true_iff.mp h'
  obtain rfl : v = v' := by simpa [hb] using hb'
  exact atLeast_eq_true_iff.mpr ⟨u, w, ha, hc, Version.le_trans hle' hle⟩

theorem atLeast_total (ha : parse a = .ok v) (hb : parse b = .ok w) :
    atLeast a b = .ok true ∨ atLeast b a = .ok true := by
  simp only [atLeast_eq_true_iff]
  rcases v.le_total w with hle | hle
  · exact .inr ⟨w, v, hb, ha, hle⟩
  · exact .inl ⟨v, w, ha, hb, hle⟩

/-- Texts that are not older than each other are spellings of one version. -/
theorem atLeast_both_iff (ha : parse a = .ok v) (hb : parse b = .ok w) :
    atLeast a b = .ok true ∧ atLeast b a = .ok true ↔ v.text = w.text := by
  rw [atLeast_of_ok ha hb, atLeast_of_ok hb ha]
  simp only [Except.ok.injEq, notOlder_iff]
  constructor
  · rintro ⟨hle, hle'⟩
    rw [Version.le_antisymm hle' hle]
  · intro h
    rw [text_injective h]
    exact ⟨w.le_refl, w.le_refl⟩

/-- A version is read from its text; of all its spellings this is the canonical one, and reading and
writing it again changes nothing.  Texts are compared by the versions they stand for, the first one
that stands for none is the failure, and on the others the comparison is a total order up to
spelling. -/
theorem canonical_text_and_order :
    (∀ v : Version, parse v.text = .ok v) ∧
      (∀ (spelling : String) (v : Version), parse spelling = .ok v →
        (∀ other, Canonical other ∧ parse other = .ok v ↔ other = v.text) ∧
          (parse v.text).map text = .ok v.text) ∧
      (∀ (a b : String) (result : Except Malformed Bool),
        atLeast a b = result ↔ Compares a b result) ∧
      (∀ (a : String) (v : Version), parse a = .ok v → atLeast a a = .ok true) ∧
      (∀ a b c : String, atLeast a b = .ok true → atLeast b c = .ok true →
        atLeast a c = .ok true) ∧
      ∀ (a b : String) (v w : Version), parse a = .ok v → parse b = .ok w →
        (atLeast a b = .ok true ∨ atLeast b a = .ok true) ∧
          (atLeast a b = .ok true ∧ atLeast b a = .ok true ↔ v.text = w.text) := by
  refine ⟨parse_text, ?_, fun a b result => atLeast_eq_iff, fun a v => atLeast_refl,
    fun a b c => atLeast_trans, fun a b v w ha hb => ⟨atLeast_total ha hb, atLeast_both_iff ha hb⟩⟩
  intro spelling v _
  refine ⟨fun other => canonical_iff, ?_⟩
  rw [parse_text]
  rfl

/-- Of the spellings of version 0.4.0 only one is canonical; two of them are not older than each
other, and version 1 is not older than either. -/
theorem spelled_text_and_order :
    parse "00.4" = .ok ⟨0, 4, 0⟩ ∧ parse "0.04.0" = .ok ⟨0, 4, 0⟩ ∧
      (∀ other, Canonical other ∧ parse other = .ok ⟨0, 4, 0⟩ ↔ other = "0.4.0") ∧
      atLeast "00.4" "00.4" = .ok true ∧ atLeast "00.4" "0.04.0" = .ok true ∧
      atLeast "0.04.0" "00.4" = .ok true ∧ atLeast "1" "00.4" = .ok true := by
  have ha : parse "00.4" = .ok ⟨0, 4, 0⟩ := by rfl
  have hb : parse "0.04.0" = .ok ⟨0, 4, 0⟩ := by rfl
  have htext : (⟨0, 4, 0⟩ : Version).text = "0.4.0" := by decide
  obtain ⟨-, hcanonical, -, hrefl, htrans, hpair⟩ := canonical_text_and_order
  obtain ⟨hab, hba⟩ := (hpair _ _ _ _ ha hb).2.mpr rfl
  refine ⟨ha, hb, ?_, hrefl _ _ ha, hab, hba, htrans "1" "0.04.0" "00.4" (by rfl) hba⟩
  rw [← htext]
  exact (hcanonical _ _ ha).1

end CniPlugin.Version
