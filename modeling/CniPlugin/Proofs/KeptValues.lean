import CniPlugin.Proofs.WrittenValues
/-!
# What a reader keeps of a value

A free value that has been read is nested no deeper than its reader admits, and its objects hold
their members in the order of their keys, in whatever order they were written.  So what has been
read can be written and read again, if its numbers are integers; and integers are what is written
without a fraction and an exponent, as long as it is in range and not minus zero.

Results:
1. `itemsWithin_induction`, `membersWithin_induction`: what each round preserves, a loop preserves.
2. `sortedKeys_insert`: an insertion keeps the members in their order.
3. `value_eq_integer_iff`: the numerals that are kept as integers.
4. `kept_of_value`: a value that has been read is one that its reader keeps.
5. `value_ne_null`: only the word for null is read as null.
-/

namespace CniPlugin.Json

/-! ## Loops -/

section
variable {σ : Type} {P : σ → Prop}

/-- What every item preserves holds at the end of a list. -/
theorem itemsWithin_induction {item : σ → Reader σ}
    (step : ∀ acc s acc' rest, P acc → item acc s = .ok (acc', rest) → P acc')
    {rounds : Bytes} {first : Bool} {acc out : σ} {s rest : Bytes} (hacc : P acc)
    (h : itemsWithin item rounds first acc s = .ok (out, rest)) : P out := by
  induction rounds generalizing first acc s with
  | nil => cases h
  | cons x rounds ih =>
    obtain ⟨more, s₁, -, h⟩ := bind_eq_ok_iff.mp h
    cases more with
    | false =>
      cases h
      exact hacc
    | true =>
      obtain ⟨acc₁, s₂, hi, h⟩ := bind_eq_ok_iff.mp h
      exact ih (step acc s₁ acc₁ s₂ hacc hi) h

/-- What every member preserves holds at the end of an object. -/
theorem membersWithin_induction {member : String → σ → Reader σ}
    (step : ∀ key acc s acc' rest, P acc → member key acc s = .ok (acc', rest) → P acc')
    {rounds : Bytes} {first : Bool} {acc out : σ} {s rest : Bytes} (hacc : P acc)
    (h : membersWithin member rounds first acc s = .ok (out, rest)) : P out := by
  induction rounds generalizing first acc s with
  | nil => cases h
  | cons x rounds ih =>
    obtain ⟨key?, s₁, -, h⟩ := bind_eq_ok_iff.mp h
    cases key? with
    | none =>
      cases h
      exact hacc
    | some key =>
      obtain ⟨acc₁, s₂, hi, h⟩ := bind_eq_ok_iff.mp h
      exact ih (step key acc s₁ acc₁ s₂ hacc hi) h

end

/-! ## Insertions -/

theorem eq_or_mem_of_mem_insert {key : String} {v : Json} {members : List (String × Json)}
    {m : String × Json} (h : m ∈ insert key v members) : m = (key, v) ∨ m ∈ members := by
  induction members with
  | nil => exact .inl (List.mem_singleton.mp h)
  | cons n members ih =>
    rw [insert] at h
    split at h
    · exact (List.mem_cons.mp h).imp id (List.mem_cons_of_mem n)
    · split at h
      · exact List.mem_cons.mp h
      · rcases List.mem_cons.mp h with rfl | h
        · exact .inr List.mem_cons_self
        · exact (ih h).imp id (List.mem_cons_of_mem n)

/-- An insertion keeps the members in the order of their keys. -/
theorem sortedKeys_insert {members : List (String × Json)} (h : SortedKeys members) (key : String)
    (v : Json) : SortedKeys (insert key v members) := by
  induction members with
  | nil => exact List.pairwise_singleton _ _
  | cons m members ih =>
    obtain ⟨hm, hrest⟩ := List.pairwise_cons.mp h
    rw [insert]
    split
    · next he => exact List.pairwise_cons.mpr ⟨fun n hn => he ▸ hm n hn, hrest⟩
    · next hne =>
      split
      · next hlt =>
        refine List.pairwise_cons.mpr ⟨fun n hn => ?_, h⟩
        rcases List.mem_cons.mp hn with rfl | hn
        · exact hlt
        · exact String.lt_trans hlt (hm n hn)
      · next hlt =>
        have hgt : m.1 < key :=
          String.not_le.mp fun hle => hne (String.le_antisymm hle (String.not_lt.mp hlt))
        refine List.pairwise_cons.mpr ⟨fun n hn => ?_, ih hrest⟩
        rcases eq_or_mem_of_mem_insert hn with rfl | hn
        · exact hgt
        · exact hm n hn

/-! ## Numbers -/

/-- The number that digits stand for behind others that stand for `m`. -/
def digitsFrom (m : Nat) (digits : Bytes) : Nat :=
  digits.foldl (fun m d => m * 10 + digitValue d) m

theorem le_digitsFrom (m : Nat) (digits : Bytes) : m ≤ digitsFrom m digits := by
  induction digits generalizing m with
  | nil => exact Nat.le_refl m
  | cons d ds ih =>
    have hnext : m ≤ m * 10 + digitValue d := by omega
    exact Nat.le_trans hnext (ih (m * 10 + digitValue d))

/-- All digits are absorbed exactly if their number fits in 64 bits. -/
theorem absorb_eq_iff {m n : Nat} (hm : m < UInt64.size) (digits : Bytes) :
    absorb m digits = (n, 0) ↔ digitsFrom m digits = n ∧ n < UInt64.size := by
  induction digits generalizing m with
  | nil =>
    rw [absorb, digitsFrom, List.foldl_nil, Prod.mk.injEq]
    exact ⟨fun h => ⟨h.1, h.1 ▸ hm⟩, fun h => ⟨h.1, rfl⟩⟩
  | cons d ds ih =>
    rw [absorb]
    split
    · next hfits => exact ih hfits
    · next hlarge =>
      have hle := le_digitsFrom (m * 10 + digitValue d) ds
      constructor
      · intro h
        cases (Prod.mk.inj h).2
      · rintro ⟨rfl, hn⟩
        exact absurd (Nat.lt_of_le_of_lt hle hn) hlarge

/-- A numeral is kept as an integer exactly if it is written without fraction and exponent, is not
minus zero and is in range. -/
theorem Numeral.value_eq_integer_iff {n : Numeral} {i : Int}
    {bounded : -9223372036854775808 ≤ i ∧ i < 18446744073709551616} :
    n.value = .ok (.integer i bounded) ↔
      n.fraction = [] ∧ n.exponent = none ∧ ¬ (n.negative ∧ digitsFrom 0 n.whole = 0) ∧
        signed n.negative (digitsFrom 0 n.whole) = i := by
  constructor
  · intro h
    unfold value at h
    split at h
    next start dropped hdigits =>
    split at h
    · next hplain =>
      simp only [Bool.and_eq_true, decide_eq_true_eq, List.isEmpty_iff, Option.isNone_iff_eq_none]
        at hplain
      obtain ⟨⟨rfl, hfraction⟩, hexponent⟩ := hplain
      obtain ⟨rfl, -⟩ := (absorb_eq_iff (by decide) n.whole).mp hdigits
      exact ⟨hfraction, hexponent, Number.ofSignificand_eq_integer_iff.mp (Except.ok.inj h)⟩
    · -- Whatever is scaled by a power of ten is no integer any more.
      dsimp only at h
      split at h
      · split at h <;> cases h
      · split at h
        · split at h <;> cases h
        · split at h <;> cases h
  · rintro ⟨hfraction, hexponent, hzero, rfl⟩
    have hfits : digitsFrom 0 n.whole < UInt64.size := by
      simp only [signed, UInt64.size] at bounded ⊢
      split at bounded <;> omega
    have hdigits := (absorb_eq_iff (by decide) n.whole).mpr ⟨rfl, hfits⟩
    unfold value
    rw [hdigits, hfraction, hexponent]
    exact congrArg Except.ok (Number.ofSignificand_eq_integer_iff.mpr ⟨hzero, rfl⟩)

/-! ## Values -/

/-- A value that has been read is a scalar, or what one of the two readers has read. -/
theorem valueWith_cases {list object : Reader Json} {s rest : Bytes} {v : Json}
    (h : valueWith list object s = .ok (v, rest)) :
    (∀ depth, Kept depth v) ∨ (∃ r, list r = .ok (v, rest)) ∨ ∃ r, object r = .ok (v, rest) := by
  have scalar {v : Json} (hl : ∀ items, v ≠ .list items) (ho : ∀ members, v ≠ .object members)
      (depth : Nat) : Kept depth v := by
    cases v with
    | list items => exact absurd rfl (hl items)
    | object members => exact absurd rfl (ho members)
    | null | bool b | number n | text s => cases depth <;> exact trivial
  unfold valueWith at h
  split at h
  · cases h
  · next b r hs =>
    split at h
    case h_1 | h_2 | h_3 | h_4 | h_5 | h_6 =>
      obtain ⟨_, -, rfl⟩ := map_eq_ok_iff.mp h
      exact .inl (scalar nofun nofun)
    case h_7 => exact .inr (.inl ⟨r, h⟩)
    case h_8 => exact .inr (.inr ⟨r, h⟩)
    case h_9 => cases h

theorem kept_of_listOf {reader : Reader Json} {depth : Nat}
    (hr : ∀ s v rest, reader s = .ok (v, rest) → Kept depth v) {s rest : Bytes} {v : Json}
    (h : listOf reader s = .ok (v, rest)) : Kept (depth + 1) v := by
  obtain ⟨acc, hlist, rfl⟩ := map_eq_ok_iff.mp h
  obtain ⟨middle, hitems, -⟩ := inList_eq_ok_iff.mp hlist
  have hall : ∀ item ∈ acc, Kept depth item := by
    refine itemsWithin_induction (P := fun acc => ∀ item ∈ acc, Kept depth item) ?_
      (fun _ hm => absurd hm List.not_mem_nil) hitems
    intro acc s acc' rest hacc hi item hm
    obtain ⟨v, hv, rfl⟩ := map_eq_ok_iff.mp hi
    rcases List.mem_cons.mp hm with rfl | hm
    · exact hr s _ rest hv
    · exact hacc item hm
  exact fun item hm => hall item (List.mem_reverse.mp hm)

theorem kept_of_objectOf {reader : Reader Json} {depth : Nat}
    (hr : ∀ s v rest, reader s = .ok (v, rest) → Kept depth v) {s rest : Bytes} {v : Json}
    (h : objectOf reader s = .ok (v, rest)) : Kept (depth + 1) v := by
  obtain ⟨acc, hobject, rfl⟩ := map_eq_ok_iff.mp h
  obtain ⟨middle, hmembers, -⟩ := inObject_eq_ok_iff.mp hobject
  refine membersWithin_induction (P := fun acc => SortedKeys acc ∧ ∀ m ∈ acc, Kept depth m.2) ?_
    ⟨.nil, fun _ hm => absurd hm List.not_mem_nil⟩ hmembers
  intro key acc s acc' rest hacc hi
  obtain ⟨⟨⟩, s₁, -, hi⟩ := bind_eq_ok_iff.mp hi
  obtain ⟨v, s₂, hv, hi⟩ := bind_eq_ok_iff.mp hi
  cases hi
  refine ⟨sortedKeys_insert hacc.1 key v, fun m hm => ?_⟩
  rcases eq_or_mem_of_mem_insert hm with rfl | hm
  · exact hr s₁ v rest hv
  · exact hacc.2 m hm

/-- A value that has been read is one that its reader keeps. -/
theorem kept_of_value {depth : Nat} {s rest : Bytes} {v : Json}
    (h : value depth s = .ok (v, rest)) : Kept depth v := by
  induction depth generalizing s v rest with
  | zero =>
    rcases valueWith_cases h with hk | ⟨r, hl⟩ | ⟨r, ho⟩
    · exact hk 0
    · cases hl
    · cases ho
  | succ depth ih =>
    rcases valueWith_cases h with hk | ⟨r, hl⟩ | ⟨r, ho⟩
    · exact hk (depth + 1)
    · exact kept_of_listOf (fun _ _ _ hv => ih hv) hl
    · exact kept_of_objectOf (fun _ _ _ hv => ih hv) ho

theorem valueWith_ne_null {list object : Reader Json} {s r rest : Bytes} {b : UInt8}
    (hs : skipBlanks s = b :: r) (hb : b ≠ 0x6E) (hl : list r ≠ .ok (.null, rest))
    (ho : object r ≠ .ok (.null, rest)) : valueWith list object s ≠ .ok (.null, rest) := by
  intro h
  have hstart : Start.of b ≠ .null := by
    unfold Start.of
    rw [if_neg hb]
    repeat' split
    all_goals exact nofun
  rw [valueWith, hs] at h
  dsimp only at h
  split at h
  case h_1 hn => exact hstart hn
  case h_2 | h_3 | h_4 | h_5 | h_6 =>
    obtain ⟨_, -, hv⟩ := map_eq_ok_iff.mp h
    cases hv
  case h_7 => exact hl h
  case h_8 => exact ho h
  case h_9 => cases h

/-- Only the word for null is read as null. -/
theorem value_ne_null {depth : Nat} {s r : Bytes} {b : UInt8} (hs : skipBlanks s = b :: r)
    (hb : b ≠ 0x6E) (rest : Bytes) : value depth s ≠ .ok (.null, rest) := by
  cases depth with
  | zero => exact valueWith_ne_null hs hb nofun nofun
  | succ depth =>
    refine valueWith_ne_null hs hb (fun hl => ?_) (fun ho => ?_)
    · obtain ⟨acc, -, hv⟩ := map_eq_ok_iff.mp hl
      cases hv
    · obtain ⟨acc, -, hv⟩ := map_eq_ok_iff.mp ho
      cases hv

end CniPlugin.Json
