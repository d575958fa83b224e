import CniPlugin.Proofs.PassedValues
import CniPlugin.Proofs.KeptValues
/-!
# The members of an object as they are written

The text of an object lists members in some order, and may list a key more than once.  Readers of
objects differ in what they make of that list, but not in the list: where each value is read as a
free value, reading the object is folding the members.  Reading it as a free value keeps the last
member of each key.

Results:
1. `valueWith_eq_ok_iff`: what a free value is, by its first byte.
2. `inObject_members_eq_ok_iff`: reading an object folds its members.
3. `value_eq_object_iff`, `parse_eq_object_iff`: what is kept of an object.
4. `lookup_collect`, `filter_collect`: of members with one key the last stays.
-/

namespace CniPlugin.Json

/-! ## Definitions -/

/-- What a free value is, by its first byte. -/
inductive ValueAhead (list object : Reader Json) (s : Bytes) : Json → Bytes → Prop
  | null {r rest : Bytes} : skipBlanks s = 0x6E :: r → word restOfNull r = .ok ((), rest) →
      ValueAhead list object s .null rest
  | true {r rest : Bytes} : skipBlanks s = 0x74 :: r → word restOfTrue r = .ok ((), rest) →
      ValueAhead list object s (.bool true) rest
  | false {r rest : Bytes} : skipBlanks s = 0x66 :: r → word restOfFalse r = .ok ((), rest) →
      ValueAhead list object s (.bool false) rest
  | minus {r rest : Bytes} {n : Number} : skipBlanks s = 0x2D :: r →
      numberAfterSign true r = .ok (n, rest) → ValueAhead list object s (.number n) rest
  | digit {b : UInt8} {r rest : Bytes} {n : Number} : isDigit b = true → skipBlanks s = b :: r →
      numberAfterSign false (b :: r) = .ok (n, rest) → ValueAhead list object s (.number n) rest
  | text {r rest : Bytes} {t : String} : skipBlanks s = 0x22 :: r → textBody r = .ok (t, rest) →
      ValueAhead list object s (.text t) rest
  | list {r rest : Bytes} {v : Json} : skipBlanks s = 0x5B :: r → list r = .ok (v, rest) →
      ValueAhead list object s v rest
  | object {r rest : Bytes} {v : Json} : skipBlanks s = 0x7B :: r → object r = .ok (v, rest) →
      ValueAhead list object s v rest

/-- The key of the next member, behind a comma unless it is the first. -/
inductive KeyAhead : Bool → Bytes → String → Bytes → Prop
  | first {s r rest : Bytes} {key : String} : skipBlanks s = 0x22 :: r →
      textBody r = .ok (key, rest) → KeyAhead true s key rest
  | further {s r t rest : Bytes} {key : String} : skipBlanks s = 0x2C :: r →
      skipBlanks r = 0x22 :: t → textBody t = .ok (key, rest) → KeyAhead false s key rest

/-- The members up to the closing brace, in the order of the text and with all repetitions. -/
inductive MembersAhead (depth : Nat) : Bool → Bytes → List (String × Json) → Bytes → Prop
  | close {first : Bool} {s rest : Bytes} : skipBlanks s = 0x7D :: rest →
      MembersAhead depth first s [] rest
  | member {first : Bool} {s s₁ s₂ s₃ rest : Bytes} {key : String} {v : Json}
      {ms : List (String × Json)} : KeyAhead first s key s₁ → skipBlanks s₁ = 0x3A :: s₂ →
      value depth s₂ = .ok (v, s₃) → MembersAhead depth false s₃ ms rest →
      MembersAhead depth first s ((key, v) :: ms) rest

/-- The input holds one object and nothing else; these are the members in its text. -/
def Lists (input : Bytes) (ms : List (String × Json)) : Prop :=
  ∃ r rest, skipBlanks input = 0x7B :: r ∧ MembersAhead (depthLimit - 1) true r ms rest ∧
    skipBlanks rest = []

/-- The members sorted by key, of each key the last. -/
def collect (ms : List (String × Json)) : List (String × Json) :=
  ms.foldl (fun acc m => insert m.1 m.2 acc) []

/-- The reader of a member reads its value as a free value, and `step` says what becomes of it. -/
def ReadsBy {σ : Type} (depth : Nat) (member : String → σ → Reader σ)
    (step : σ → String × Json → Option σ) : Prop :=
  ∀ key acc s acc' rest, member key acc s = .ok (acc', rest) ↔
    ∃ middle v, skipBlanks s = 0x3A :: middle ∧ value depth middle = .ok (v, rest) ∧
      step acc (key, v) = some acc'

/-! ## Values -/

theorem start_of_digit {b : UInt8} (h : isDigit b = true) : Start.of b = .digit := by
  have hne {c : UInt8} (hc : isDigit c = false) : b ≠ c := by
    rintro rfl
    rw [hc] at h
    cases h
  unfold Start.of
  rw [if_neg (hne rfl), if_neg (hne rfl), if_neg (hne rfl), if_neg (hne rfl), if_pos h]

theorem eq_of_start {b : UInt8} {start : Start} (h : Start.of b = start) :
    match start with
    | .null => b = 0x6E
    | .true => b = 0x74
    | .false => b = 0x66
    | .minus => b = 0x2D
    | .digit => isDigit b = true
    | .text => b = 0x22
    | .list => b = 0x5B
    | .object => b = 0x7B
    | .none => True := by
  unfold Start.of at h
  repeat' split at h
  all_goals
    subst h
    first | assumption | trivial

/-- What a free value is, by its first byte. -/
theorem valueWith_eq_ok_iff {list object : Reader Json} {s rest : Bytes} {v : Json} :
    valueWith list object s = .ok (v, rest) ↔ ValueAhead list object s v rest := by
  constructor
  · intro h
    unfold valueWith at h
    split at h
    · cases h
    · next b r hs =>
      have ahead {c : UInt8} (hc : b = c) : skipBlanks s = c :: r := hc ▸ hs
      cases hstart : Start.of b <;> simp only [hstart] at h
      case null =>
        obtain ⟨⟨⟩, hword, rfl⟩ := map_eq_ok_iff.mp h
        exact .null (ahead (eq_of_start hstart)) hword
      case true =>
        obtain ⟨⟨⟩, hword, rfl⟩ := map_eq_ok_iff.mp h
        exact .true (ahead (eq_of_start hstart)) hword
      case false =>
        obtain ⟨⟨⟩, hword, rfl⟩ := map_eq_ok_iff.mp h
        exact .false (ahead (eq_of_start hstart)) hword
      case minus =>
        obtain ⟨n, hn, rfl⟩ := map_eq_ok_iff.mp h
        exact .minus (ahead (eq_of_start hstart)) hn
      case digit =>
        obtain ⟨n, hn, rfl⟩ := map_eq_ok_iff.mp h
        exact .digit (eq_of_start hstart) hs hn
      case text =>
        obtain ⟨t, ht, rfl⟩ := map_eq_ok_iff.mp h
        exact .text (ahead (eq_of_start hstart)) ht
      case list => exact .list (ahead (eq_of_start hstart)) h
      case object => exact .object (ahead (eq_of_start hstart)) h
      case none => cases h
  · intro h
    unfold valueWith
    cases h with
    | null hs hword | true hs hword | false hs hword =>
      rw [hs]
      exact map_of_ok hword _
    | minus hs hn =>
      rw [hs]
      exact map_of_ok hn _
    | digit hb hs hn =>
      rw [hs]
      simp only [start_of_digit hb]
      exact map_of_ok hn _
    | text hs ht =>
      rw [hs]
      exact map_of_ok ht _
    | list hs hv | object hs hv =>
      rw [hs]
      exact hv

theorem listOf_ne {reader : Reader Json} {s rest : Bytes} {v : Json}
    (hv : ∀ items, v ≠ .list items) : listOf reader s ≠ .ok (v, rest) := by
  intro h
  obtain ⟨acc, -, rfl⟩ := map_eq_ok_iff.mp h
  exact hv _ rfl

theorem objectOf_ne {reader : Reader Json} {s rest : Bytes} {v : Json}
    (hv : ∀ ms, v ≠ .object ms) : objectOf reader s ≠ .ok (v, rest) := by
  intro h
  obtain ⟨acc, -, rfl⟩ := map_eq_ok_iff.mp h
  exact hv _ rfl

/-- The readers of lists and objects may be others if they read the same there. -/
theorem ValueAhead.mono {list object list' object' : Reader Json} {s rest : Bytes} {v : Json}
    (h : ValueAhead list object s v rest)
    (hl : ∀ r, list r = .ok (v, rest) → list' r = .ok (v, rest))
    (ho : ∀ r, object r = .ok (v, rest) → object' r = .ok (v, rest)) :
    ValueAhead list' object' s v rest := by
  cases h with
  | null hs hw => exact .null hs hw
  | true hs hw => exact .true hs hw
  | false hs hw => exact .false hs hw
  | minus hs hn => exact .minus hs hn
  | digit hb hs hn => exact .digit hb hs hn
  | text hs ht => exact .text hs ht
  | list hs hv => exact .list hs (hl _ hv)
  | object hs hv => exact .object hs (ho _ hv)

/-- A value that is no list and no object does not depend on the depth. -/
theorem value_eq_ok_iff_of_flat {depth : Nat} {s rest : Bytes} {v : Json}
    (hl : ∀ items, v ≠ .list items) (ho : ∀ ms, v ≠ .object ms) :
    value depth s = .ok (v, rest) ↔
      ValueAhead (failHere .tooDeep) (failHere .tooDeep) s v rest := by
  cases depth with
  | zero => exact valueWith_eq_ok_iff
  | succ depth =>
    rw [value, valueWith_eq_ok_iff]
    have hfails {r : Bytes} : failHere Cause.tooDeep r ≠ .ok (v, rest) := by
      rw [failHere]
      simp
    exact ⟨fun h => h.mono (fun _ hv => absurd hv (listOf_ne hl))
      fun _ hv => absurd hv (objectOf_ne ho),
      fun h => h.mono (fun _ hv => absurd hv hfails) fun _ hv => absurd hv hfails⟩

theorem value_eq_null_iff {depth : Nat} {s rest : Bytes} :
    value depth s = .ok (.null, rest) ↔
      ∃ r, skipBlanks s = 0x6E :: r ∧ word restOfNull r = .ok ((), rest) := by
  rw [value_eq_ok_iff_of_flat (v := .null) nofun nofun]
  constructor
  · intro h
    cases h with
    | null hs hw => exact ⟨_, hs, hw⟩
    | list hs hv | object hs hv => cases hv
  · rintro ⟨r, hs, hw⟩
    exact .null hs hw

theorem value_eq_text_iff {depth : Nat} {s rest : Bytes} {t : String} :
    value depth s = .ok (.text t, rest) ↔
      ∃ r, skipBlanks s = 0x22 :: r ∧ textBody r = .ok (t, rest) := by
  rw [value_eq_ok_iff_of_flat (v := .text t) nofun nofun]
  constructor
  · intro h
    cases h with
    | text hs ht => exact ⟨_, hs, ht⟩
    | list hs hv | object hs hv => cases hv
  · rintro ⟨r, hs, ht⟩
    exact .text hs ht

/-! ## Members -/

theorem nextKey_eq_some_iff {first : Bool} {s rest : Bytes} {key : String} :
    nextKey first s = .ok (some key, rest) ↔ KeyAhead first s key rest := by
  constructor
  · intro h
    rcases nextKey_of_ok h with ⟨hnone, -⟩ | ⟨_, ⟨⟩, ⟨rfl, r, hs, ht⟩ | ⟨rfl, r, t, hs, hr, ht⟩⟩
    · cases hnone
    · exact .first hs ht
    · exact .further hs hr ht
  · intro h
    unfold nextKey
    cases h with
    | first hs ht =>
      rw [hs]
      exact map_of_ok ht _
    | further hs hr ht =>
      simp only [hs, hr]
      exact map_of_ok ht _

theorem nextKey_eq_none_iff {first : Bool} {s rest : Bytes} :
    nextKey first s = .ok (none, rest) ↔ ∃ r, skipBlanks s = 0x7D :: r ∧ rest = 0x7D :: r := by
  constructor
  · intro h
    rcases nextKey_of_ok h with ⟨-, hclose⟩ | ⟨_, ⟨⟩, -⟩
    exact hclose
  · rintro ⟨r, hs, rfl⟩
    rw [nextKey, hs]
    rfl

theorem KeyAhead.length_lt {first : Bool} {s rest : Bytes} {key : String}
    (h : KeyAhead first s key rest) : rest.length < s.length := by
  cases h with
  | first hs ht =>
    have hskip := length_of_skipBlanks hs
    have htext := (passText_of_textBody ht).2
    omega
  | further hs hr ht =>
    have hskip := length_of_skipBlanks hs
    have hskip' := length_of_skipBlanks hr
    have htext := (passText_of_textBody ht).2
    omega

theorem length_of_value {depth : Nat} {s rest : Bytes} {v : Json}
    (h : value depth s = .ok (v, rest)) : rest.length < s.length :=
  (value_passes depth s s s v rest (Nat.le_refl _) rfl h).2

section
variable {σ : Type} {depth : Nat} {member : String → σ → Reader σ}
  {step : σ → String × Json → Option σ}

/-- A loop that ends at the closing brace has folded the members up to there. -/
theorem fold_of_membersWithin (hm : ReadsBy depth member step) {rounds : Bytes} {first : Bool}
    {acc out : σ} {s rest : Bytes}
    (h : membersWithin member rounds first acc s = .ok (out, rest)) :
    ∃ ms r, rest = 0x7D :: r ∧ MembersAhead depth first s ms r ∧
      ms.foldlM step acc = some out := by
  induction rounds generalizing first acc s with
  | nil => cases h
  | cons x rounds ih =>
    obtain ⟨key?, s₁, hk, h⟩ := bind_eq_ok_iff.mp h
    cases key? with
    | none =>
      obtain ⟨r, hs, rfl⟩ := nextKey_eq_none_iff.mp hk
      cases h
      exact ⟨[], r, rfl, .close hs, rfl⟩
    | some key =>
      obtain ⟨acc₁, s₂, hmember, h⟩ := bind_eq_ok_iff.mp h
      obtain ⟨middle, v, hc, hv, hstep⟩ := (hm _ _ _ _ _).mp hmember
      obtain ⟨ms, r, hrest, hms, hfold⟩ := ih h
      refine ⟨(key, v) :: ms, r, hrest, .member (nextKey_eq_some_iff.mp hk) hc hv hms, ?_⟩
      rw [List.foldlM_cons, hstep]
      exact hfold

/-- Members that can be folded are read up to the closing brace, if the rounds last. -/
theorem membersWithin_of_fold (hm : ReadsBy depth member step) {rounds : Bytes} {first : Bool}
    {acc out : σ} {s rest : Bytes} {ms : List (String × Json)}
    (h : MembersAhead depth first s ms rest) (hfold : ms.foldlM step acc = some out)
    (hr : s.length ≤ rounds.length) :
    membersWithin member rounds first acc s = .ok (out, 0x7D :: rest) := by
  induction h generalizing acc rounds with
  | @close first s rest hs =>
    have hpos := length_of_skipBlanks hs
    obtain ⟨x, rounds, rfl⟩ := List.exists_cons_of_length_pos (l := rounds) (by omega)
    cases hfold
    exact bind_eq_ok_iff.mpr ⟨none, _, nextKey_eq_none_iff.mpr ⟨rest, hs, rfl⟩, rfl⟩
  | @member first s s₁ s₂ s₃ rest key v ms hk hc hv hms ih =>
    -- Each part of a member takes bytes, so a round may be spent on it.
    have hkey := hk.length_lt
    have hcolon := length_of_skipBlanks hc
    have hvalue := length_of_value hv
    obtain ⟨x, rounds, rfl⟩ := List.exists_cons_of_length_pos (l := rounds) (by omega)
    rw [List.length_cons] at hr
    rw [List.foldlM_cons] at hfold
    obtain ⟨acc₁, hstep, hfold⟩ := Option.bind_eq_some_iff.mp hfold
    refine bind_eq_ok_iff.mpr ⟨some key, s₁, nextKey_eq_some_iff.mpr hk, ?_⟩
    exact bind_eq_ok_iff.mpr ⟨acc₁, s₃, (hm _ _ _ _ _).mpr ⟨s₂, v, hc, hv, hstep⟩,
      ih hfold (by omega)⟩

/-- Reading an object folds its members. -/
theorem inObject_members_eq_ok_iff (hm : ReadsBy depth member step) {acc out : σ}
    {s rest : Bytes} :
    inObject (members member acc) s = .ok (out, rest) ↔
      ∃ ms, MembersAhead depth true s ms rest ∧ ms.foldlM step acc = some out := by
  rw [inObject_eq_ok_iff]
  constructor
  · rintro ⟨middle, h, hclose⟩
    obtain ⟨ms, r, rfl, hms, hfold⟩ := fold_of_membersWithin hm h
    rw [skipBlanks_cons (by decide)] at hclose
    cases hclose
    exact ⟨ms, hms, hfold⟩
  · rintro ⟨ms, hms, hfold⟩
    exact ⟨0x7D :: rest, membersWithin_of_fold hm hms hfold (Nat.le_refl _),
      skipBlanks_cons (by decide) rest⟩

end

/-! ## Free objects -/

/-- A free object takes every member in. -/
theorem readsBy_insert (depth : Nat) :
    ReadsBy depth
      (fun key acc => do
        colon
        let v ← value depth
        pure (insert key v acc))
      fun acc m => some (insert m.1 m.2 acc) := by
  intro key acc s acc' rest
  simp only [bind_eq_ok_iff, Option.some.injEq]
  constructor
  · rintro ⟨⟨⟩, middle, hc, v, s₁, hv, h⟩
    cases h
    exact ⟨middle, v, colon_eq_ok_iff.mp hc, hv, rfl⟩
  · rintro ⟨middle, v, hc, hv, rfl⟩
    exact ⟨(), middle, colon_eq_ok_iff.mpr hc, v, rest, hv, rfl⟩

/-- What is kept of an object is the collection of its members. -/
theorem value_eq_object_iff {depth : Nat} {s rest : Bytes} {kept : List (String × Json)} :
    value (depth + 1) s = .ok (.object kept, rest) ↔
      ∃ r ms, skipBlanks s = 0x7B :: r ∧ MembersAhead depth true r ms rest ∧
        kept = collect ms := by
  have hfold (ms : List (String × Json)) :
      ms.foldlM (fun acc m => some (insert m.1 m.2 acc)) [] = some (collect ms) :=
    List.foldlM_pure
  rw [value, valueWith_eq_ok_iff]
  constructor
  · intro h
    cases h with
    | list hs hv => exact absurd hv (listOf_ne (by simp))
    | @object r _ _ hs hv =>
      obtain ⟨_, hv, ⟨⟩⟩ := map_eq_ok_iff.mp hv
      obtain ⟨ms, hms, hkept⟩ := (inObject_members_eq_ok_iff (readsBy_insert depth)).mp hv
      rw [hfold] at hkept
      cases hkept
      exact ⟨r, ms, hs, hms, rfl⟩
  · rintro ⟨r, ms, hs, hms, rfl⟩
    exact .object hs (map_eq_ok_iff.mpr
      ⟨_, (inObject_members_eq_ok_iff (readsBy_insert depth)).mpr ⟨ms, hms, hfold ms⟩, rfl⟩)

theorem parse_eq_object_iff {input : Bytes} {kept : List (String × Json)} :
    parse input = .ok (.object kept) ↔ ∃ ms, Lists input ms ∧ kept = collect ms := by
  rw [parse, readDocument_eq_ok_iff]
  constructor
  · rintro ⟨rest, h, hend⟩
    obtain ⟨r, ms, hs, hms, hkept⟩ := value_eq_object_iff.mp h
    exact ⟨ms, ⟨r, rest, hs, hms, hend⟩, hkept⟩
  · rintro ⟨ms, ⟨r, rest, hs, hms, hend⟩, hkept⟩
    exact ⟨rest, value_eq_object_iff.mpr ⟨r, ms, hs, hms, hkept⟩, hend⟩

/-! ## Collections -/

theorem lookup_append (key : String) (ms others : List (String × Json)) :
    lookup key (ms ++ others) = (lookup key ms).or (lookup key others) := by
  induction ms with
  | nil => rfl
  | cons m ms ih =>
    rw [List.cons_append, lookup, lookup]
    split
    · rfl
    · exact ih

/-- Of the members with a key the last one stays. -/
theorem lookup_collect (key : String) (ms : List (String × Json)) :
    lookup key (collect ms) = lookup key ms.reverse := by
  have hfrom (acc : List (String × Json)) :
      lookup key (ms.foldl (fun acc m => insert m.1 m.2 acc) acc) =
        (lookup key ms.reverse).or (lookup key acc) := by
    induction ms generalizing acc with
    | nil => rfl
    | cons m ms ih =>
      rw [List.foldl_cons, ih, List.reverse_cons, lookup_append, Option.or_assoc]
      congr 1
      by_cases hkey : key = m.1
      · rw [hkey, lookup_insert_self, lookup, if_pos rfl]
        rfl
      · rw [lookup_insert_of_ne hkey, lookup, if_neg hkey]
        rfl
  rw [collect, hfrom, lookup, Option.or_none]

theorem lookup_filter {p : String → Bool} {key : String} (hp : p key = true)
    (ms : List (String × Json)) : lookup key (ms.filter fun m => p m.1) = lookup key ms := by
  induction ms with
  | nil => rfl
  | cons m ms ih =>
    rw [List.filter_cons]
    split
    · rw [lookup, lookup, ih]
    · next hout =>
      have hne : key ≠ m.1 := fun heq => hout (heq ▸ hp)
      rw [ih, lookup, if_neg hne]

theorem insert_of_lt {key : String} {v : Json} {ms : List (String × Json)}
    (h : ∀ m ∈ ms, key < m.1) : insert key v ms = (key, v) :: ms := by
  cases ms with
  | nil => rfl
  | cons m ms =>
    have hlt := h m List.mem_cons_self
    have hne : key ≠ m.1 := fun heq => String.lt_irrefl key (heq ▸ hlt)
    rw [insert, if_neg hne, if_pos hlt]

/-- Taking members out by their keys commutes with an insertion. -/
theorem filter_insert (p : String → Bool) {ms : List (String × Json)} (hs : SortedKeys ms)
    (key : String) (v : Json) :
    (insert key v ms).filter (fun m => p m.1) =
      if p key then insert key v (ms.filter fun m => p m.1) else ms.filter fun m => p m.1 := by
  induction ms with
  | nil =>
    rw [insert, List.filter_cons]
    rfl
  | cons m ms ih =>
    obtain ⟨hm, hms⟩ := List.pairwise_cons.mp hs
    obtain ⟨k, w⟩ := m
    rw [insert]
    split
    · next heq =>
      subst heq
      simp only [List.filter_cons]
      split
      · rw [insert, if_pos rfl]
      · rfl
    · next hne =>
      split
      · next hlt =>
        rw [List.filter_cons]
        split
        · -- All keys that stay are above the new one, whether the first of them stays or not.
          refine (insert_of_lt fun n hn => ?_).symm
          rcases List.mem_cons.mp (List.mem_filter.mp hn).1 with rfl | hn
          · exact hlt
          · exact String.lt_trans hlt (hm n hn)
        · rfl
      · next hlt =>
        simp only [List.filter_cons, ih hms]
        split
        · split
          · rw [insert, if_neg hne, if_neg hlt]
          · rfl
        · rfl

/-- Taking members out by their keys commutes with collecting. -/
theorem filter_collect (p : String → Bool) (ms : List (String × Json)) :
    (collect ms).filter (fun m => p m.1) = collect (ms.filter fun m => p m.1) := by
  have hfrom (acc : List (String × Json)) (hs : SortedKeys acc) :
      (ms.foldl (fun acc m => insert m.1 m.2 acc) acc).filter (fun m => p m.1) =
        (ms.filter fun m => p m.1).foldl (fun acc m => insert m.1 m.2 acc)
          (acc.filter fun m => p m.1) := by
    induction ms generalizing acc with
    | nil => rfl
    | cons m ms ih =>
      rw [List.foldl_cons, ih _ (sortedKeys_insert hs m.1 m.2), filter_insert p hs,
        List.filter_cons]
      split <;> rfl
  exact hfrom [] .nil

end CniPlugin.Json
