import CniPlugin.Json.Free
import CniPlugin.Proofs.WrittenRecords
/-!
# Written values are read back

A free value that is written without blanks is read back as it was, whatever its strings are and
however it is nested.  Two things are asked of it: its numbers have to be integers, since what any
other number is read back as is a matter of rounding, and its objects have to hold their members in
the order of the keys, since that is the order in which a reader keeps them.

Results:
1. `inList_items`: written items are read one after the other.
2. `objectOf_compact`: so are the members of an object, which are kept in the order of their keys.
3. `value_takes`: a value is read back, in front of anything that may follow a value.
4. `parse_compact`: so is a document, whatever blanks follow it.
-/

namespace CniPlugin.Json

/-! ## Definitions -/

/-- The members stand in the order of their keys, each key once. -/
def SortedKeys (members : List (String × Json)) : Prop := members.Pairwise fun m n => m.1 < n.1

/-- A value as a reader keeps it that admits lists and objects nested so deep. -/
def Kept : Nat → Json → Prop
  | 0, .list _ | 0, .object _ => False
  | depth + 1, .list items => ∀ item ∈ items, Kept depth item
  | depth + 1, .object members => SortedKeys members ∧ ∀ m ∈ members, Kept depth m.2
  | _, _ => True

/-- Every number in the value is an integer. -/
inductive Integral : Json → Prop
  | null : Integral .null
  | bool (b : Bool) : Integral (.bool b)
  | text (s : String) : Integral (.text s)
  | number (i : Int) (bounded : -9223372036854775808 ≤ i ∧ i < 18446744073709551616) :
      Integral (.number (.integer i bounded))
  | list {items : List Json} : (∀ item ∈ items, Integral item) → Integral (.list items)
  | object {members : List (String × Json)} :
      (∀ m ∈ members, Integral m.2) → Integral (.object members)

/-- What is kept by a reader is kept by one that admits more. -/
theorem Kept.mono {depth more : Nat} {v : Json} (h : Kept depth v) (hle : depth ≤ more) :
    Kept more v := by
  induction depth generalizing more v with
  | zero =>
    cases v with
    | list items => exact h.elim
    | object members => exact h.elim
    | null | bool b | number n | text s => cases more <;> exact trivial
  | succ depth ih =>
    obtain ⟨more, rfl⟩ : ∃ n, more = n + 1 := ⟨more - 1, by omega⟩
    have hle : depth ≤ more := Nat.le_of_succ_le_succ hle
    cases v with
    | list items => exact fun item hm => ih (h item hm) hle
    | object members => exact ⟨h.1, fun m hm => ih (h.2 m hm) hle⟩
    | null | bool b | number n | text s => exact trivial

/-! ## Scalars -/

theorem word_append (es tail : Bytes) : word es (es ++ tail) = .ok ((), tail) := by
  induction es with
  | nil => rfl
  | cons e es ih =>
    rw [List.cons_append, word]
    simp only [if_true]
    exact ih

/-- The integer with a sign and a magnitude. -/
def signed (negative : Bool) (m : Nat) : Int := if negative then -m else m

/-- An integer in range is kept as one, unless it is minus zero. -/
theorem Number.ofSignificand_eq_integer_iff {negative : Bool} {m : Nat} {i : Int}
    {bounded : -9223372036854775808 ≤ i ∧ i < 18446744073709551616} :
    ofSignificand negative m = .integer i bounded ↔
      ¬ (negative ∧ m = 0) ∧ signed negative m = i := by
  by_cases h : ¬ (negative ∧ m = 0) ∧
      -9223372036854775808 ≤ signed negative m ∧ signed negative m < 18446744073709551616
  · have hkept : ofSignificand negative m = .integer (signed negative m) h.2 := dif_pos h
    rw [hkept, Number.integer.injEq]
    exact ⟨fun he => ⟨h.1, he⟩, fun he => he.2⟩
  · have hlost : ofSignificand negative m = ofFloat negative (UInt64.ofNat m).toFloat := dif_neg h
    rw [hlost]
    constructor
    · intro he
      cases he
    · rintro ⟨hzero, rfl⟩
      exact absurd ⟨hzero, bounded⟩ h

section
variable (list object : Reader Json)

/-- Blanks in front of a value are of no account. -/
theorem valueWith_append {blanks : Bytes} (hb : ∀ b ∈ blanks, isBlank b = true) (s : Bytes) :
    valueWith list object (blanks ++ s) = valueWith list object s := by
  rw [valueWith, valueWith, skipBlanks_append hb]

theorem integer_takes (i : Int)
    (bounded : -9223372036854775808 ≤ i ∧ i < 18446744073709551616) :
    Takes (valueWith list object) (Text.Utf8.encode (Number.integer i bounded).text)
      (.number (.integer i bounded)) := by
  intro blanks tail hb ht
  by_cases hsign : i < 0
  · obtain ⟨n, rfl⟩ : ∃ n : Nat, i = -(n : Int) := ⟨i.natAbs, by omega⟩
    have hn : n ≠ 0 := by omega
    have hlt : n < UInt64.size := by
      simp only [UInt64.size]
      omega
    have htext : Text.Utf8.encode (Number.integer (-(n : Int)) bounded).text =
        0x2D :: decimal n := by
      rw [Number.text, if_pos hsign, Int.natAbs_neg, Int.natAbs_natCast]
      rfl
    have hread := numberAfterSign_decimal true hlt ht
    rw [Number.ofSignificand_eq_integer_iff.mpr ⟨fun h => hn h.2, rfl⟩] at hread
    rw [htext, valueWith_append list object hb, List.cons_append, valueWith,
      skipBlanks_cons (by decide)]
    exact map_of_ok hread Json.number
  · obtain ⟨n, rfl⟩ : ∃ n : Nat, i = (n : Int) := ⟨i.natAbs, by omega⟩
    have hlt : n < UInt64.size := by
      simp only [UInt64.size]
      omega
    have htext : Text.Utf8.encode (Number.integer (n : Int) bounded).text = decimal n := by
      rw [Number.text, if_neg hsign, Int.natAbs_natCast]
      rfl
    have hread := numberAfterSign_decimal false hlt ht
    rw [Number.ofSignificand_eq_integer_iff.mpr ⟨fun h => Bool.noConfusion h.1, rfl⟩] at hread
    obtain ⟨d, ds, hd, hdigit⟩ := decimal_eq_cons n
    rw [hd, List.cons_append] at hread
    rw [htext, valueWith_append list object hb, hd, List.cons_append, valueWith,
      skipBlanks_cons (isBlank_of_isDigit hdigit)]
    simp only [start_of_isDigit hdigit]
    exact map_of_ok hread Json.number

theorem null_takes : Takes (valueWith list object) (scalarText .null) .null := by
  intro blanks tail hb _
  rw [valueWith_append list object hb, valueWith]
  exact map_of_ok (word_append restOfNull tail) _

theorem bool_takes (b : Bool) :
    Takes (valueWith list object) (scalarText (.bool b)) (.bool b) := by
  intro blanks tail hb _
  rw [valueWith_append list object hb, valueWith]
  cases b with
  | true => exact map_of_ok (word_append restOfTrue tail) _
  | false => exact map_of_ok (word_append restOfFalse tail) _

theorem text_takes (s : String) :
    Takes (valueWith list object) (scalarText (.text s)) (.text s) := by
  intro blanks tail hb _
  rw [valueWith_append list object hb, scalarText, quote_append, valueWith,
    skipBlanks_cons (by decide)]
  exact map_of_ok (textBody_escaped s tail) Json.text

end

/-! ## Lists -/

/-- The texts of items behind an item. -/
def moreItems (texts : List Bytes) : Bytes := texts.flatMap (0x2C :: ·)

/-- The texts of all items. -/
def itemTexts : List Bytes → Bytes
  | [] => []
  | first :: texts => first ++ moreItems texts

theorem compactItems_eq (items : List Json) :
    compactItems items = itemTexts (items.map compact) := by
  match items with
  | [] => rfl
  | [item] => simp [compactItems, itemTexts, moreItems]
  | item :: next :: items =>
    rw [compactItems, compactItems_eq (next :: items)]
    rfl

/-- The text is there, and begins neither with a blank nor as the end of a list does. -/
def StartsItem (text : Bytes) : Prop :=
  ∃ b r, text = b :: r ∧ isBlank b = false ∧ b ≠ 0x5D

theorem follows_moreItems (texts : List Bytes) (rest : Bytes) :
    Follows (moreItems texts ++ 0x5D :: rest) := by
  cases texts with
  | cons text texts => exact follows_comma _
  | nil =>
    intro b r h
    cases h
    exact .inr (.inr (.inl rfl))

theorem nextItem_close (first : Bool) (rest : Bytes) :
    nextItem first (0x5D :: rest) = .ok (false, 0x5D :: rest) := by
  rw [nextItem, skipBlanks_cons (by decide)]
  rfl

theorem nextItem_first {text : Bytes} (h : StartsItem text) (rest : Bytes) :
    nextItem true (text ++ rest) = .ok (true, text ++ rest) := by
  obtain ⟨b, r, rfl, hblank, hclose⟩ := h
  rw [List.cons_append, nextItem, skipBlanks_cons hblank]
  simp only [if_neg hclose, if_true]

theorem nextItem_comma {text : Bytes} (h : StartsItem text) (rest : Bytes) :
    nextItem false (0x2C :: (text ++ rest)) = .ok (true, text ++ rest) := by
  obtain ⟨b, r, rfl, hblank, hclose⟩ := h
  rw [List.cons_append, nextItem, skipBlanks_cons (by decide)]
  simp only [skipBlanks_cons hblank, if_neg hclose]
  rfl

section
variable {α : Type} {reader : Reader α} {text : α → Bytes}

/-- The texts of the items are taken for them, each as an item of a list. -/
def ItemsTake (reader : Reader α) (text : α → Bytes) (as : List α) : Prop :=
  ∀ a ∈ as, Takes reader (text a) a ∧ StartsItem (text a)

/-- Written items behind an item are read up to the closing bracket. -/
theorem itemsWithin_more {as : List α} (h : ItemsTake reader text as) (acc : List α)
    {rounds : Bytes} (hr : as.length < rounds.length) (rest : Bytes) :
    itemsWithin (fun acc => (· :: acc) <$> reader) rounds false acc
        (moreItems (as.map text) ++ 0x5D :: rest) =
      .ok (as.reverse ++ acc, 0x5D :: rest) := by
  induction as generalizing acc rounds with
  | nil =>
    obtain ⟨x, rounds, rfl⟩ := List.exists_cons_of_length_pos (Nat.zero_lt_of_lt hr)
    rw [itemsWithin]
    exact bind_of_ok (nextItem_close false rest) _
  | cons a as ih =>
    obtain ⟨x, rounds, rfl⟩ := List.exists_cons_of_length_pos (Nat.zero_lt_of_lt hr)
    obtain ⟨htakes, hstarts⟩ := h a List.mem_cons_self
    have hshape : moreItems ((a :: as).map text) ++ 0x5D :: rest =
        0x2C :: (text a ++ (moreItems (as.map text) ++ 0x5D :: rest)) := by
      simp [moreItems]
    have hitem := htakes [] (moreItems (as.map text) ++ 0x5D :: rest) (by simp)
      (follows_moreItems (as.map text) rest)
    rw [List.nil_append] at hitem
    rw [hshape, itemsWithin, bind_of_ok (nextItem_comma hstarts _)]
    simp only [if_true]
    rw [bind_of_ok (map_of_ok hitem (· :: acc)),
      ih (fun b hb => h b (List.mem_cons_of_mem a hb)) (a :: acc) (Nat.lt_of_succ_lt_succ hr)]
    simp

theorem length_le_moreItems (texts : List Bytes) : texts.length ≤ (moreItems texts).length := by
  induction texts with
  | nil => exact Nat.zero_le _
  | cons text texts ih =>
    have hcons : moreItems (text :: texts) = 0x2C :: (text ++ moreItems texts) := rfl
    rw [hcons, List.length_cons, List.length_cons, List.length_append]
    omega

/-- A written list is read from behind its opening bracket, the last item first. -/
theorem inList_items {as : List α} (h : ItemsTake reader text as) (rest : Bytes) :
    inList (items (fun acc => (· :: acc) <$> reader) []) (itemTexts (as.map text) ++ 0x5D :: rest) =
      .ok (as.reverse, rest) := by
  refine inList_eq_ok_iff.mpr ⟨0x5D :: rest, ?_, skipBlanks_cons (by decide) rest⟩
  cases as with
  | nil =>
    show itemsWithin _ (0x5D :: rest) true [] (0x5D :: rest) = _
    rw [itemsWithin]
    exact bind_of_ok (nextItem_close true rest) _
  | cons a as =>
    obtain ⟨htakes, hstarts⟩ := h a List.mem_cons_self
    have hitem := htakes [] (moreItems (as.map text) ++ 0x5D :: rest) (by simp)
      (follows_moreItems (as.map text) rest)
    rw [List.nil_append] at hitem
    have hshape : itemTexts ((a :: as).map text) ++ 0x5D :: rest =
        text a ++ (moreItems (as.map text) ++ 0x5D :: rest) := by
      simp [itemTexts]
    rw [hshape]
    unfold items
    -- The rounds are the bytes ahead, of which there is one for the first item.
    generalize hi : text a ++ (moreItems (as.map text) ++ 0x5D :: rest) = input
    have hlen : as.length + 1 < input.length := by
      have hmore := length_le_moreItems (as.map text)
      obtain ⟨b, r, hb, -, -⟩ := hstarts
      rw [List.length_map] at hmore
      rw [← hi, hb]
      simp only [List.length_append, List.length_cons]
      omega
    obtain ⟨x, rounds, hx⟩ := List.exists_cons_of_length_pos (Nat.zero_lt_of_lt hlen)
    have hrounds : as.length < rounds.length := by
      rw [hx, List.length_cons] at hlen
      omega
    have hwithin : itemsWithin (fun acc => (· :: acc) <$> reader) (x :: rounds) true [] input =
        .ok ((a :: as).reverse, 0x5D :: rest) := by
      rw [← hi, itemsWithin, bind_of_ok (nextItem_first hstarts _)]
      simp only [if_true]
      rw [bind_of_ok (map_of_ok hitem (· :: [])),
        itemsWithin_more (fun b hb => h b (List.mem_cons_of_mem a hb)) [a] hrounds rest]
      simp
    rw [← hx] at hwithin
    exact hwithin

end

/-! ## Objects -/

/-- A member whose key comes after all others is put behind them. -/
theorem insert_last {key : String} {acc : List (String × Json)} (h : ∀ m ∈ acc, m.1 < key)
    (v : Json) : insert key v acc = acc ++ [(key, v)] := by
  induction acc with
  | nil => rfl
  | cons m acc ih =>
    have hm := h m List.mem_cons_self
    have hne : key ≠ m.1 := fun he => String.lt_irrefl _ (he ▸ hm)
    rw [insert, if_neg hne, if_neg (String.lt_asymm hm),
      ih fun n hn => h n (List.mem_cons_of_mem m hn)]
    rfl

/-- Read one by one, sorted members are kept as they stand. -/
theorem readsAll_sorted {reader : Reader Json} {acc ms : List (String × Json)}
    (hs : SortedKeys (acc ++ ms)) (ht : ∀ m ∈ ms, Takes reader m.2.compact m.2) :
    ReadsAll (fun key acc => do
      colon
      let v ← reader
      pure (insert key v acc)) (ms.map fun m => (m.1, m.2.compact)) acc (acc ++ ms) := by
  induction ms generalizing acc with
  | nil =>
    rw [List.append_nil]
    exact .nil acc
  | cons m ms ih =>
    have hbefore : ∀ n ∈ acc, n.1 < m.1 :=
      fun n hn => (List.pairwise_append.mp hs).2.2 n hn m List.mem_cons_self
    have hall : acc ++ m :: ms = insert m.1 m.2 acc ++ ms := by
      rw [insert_last hbefore, List.append_assoc]
      rfl
    rw [hall] at hs ⊢
    refine .cons ?_ (ih hs fun n hn => ht n (List.mem_cons_of_mem m hn))
    intro blanks tail hb htail
    rw [bind_of_ok (colon_eq_ok_iff.mpr (skipBlanks_cons (by decide) _)),
      bind_of_ok (ht m List.mem_cons_self blanks tail hb htail)]
    rfl

theorem nextKey_empty (rest : Bytes) :
    nextKey true (0x7D :: rest) = .ok (none, 0x7D :: rest) := by
  rw [nextKey, skipBlanks_cons (by decide)]
  rfl

/-- A written object is read from behind its opening brace. -/
theorem objectOf_compact {reader : Reader Json} {ms : List (String × Json)} (hs : SortedKeys ms)
    (ht : ∀ m ∈ ms, Takes reader m.2.compact m.2) (rest : Bytes) :
    objectOf reader (compactMembers ms ++ 0x7D :: rest) = .ok (.object ms, rest) := by
  refine map_of_ok (inObject_eq_ok_iff.mpr ⟨0x7D :: rest, ?_, skipBlanks_cons (by decide) rest⟩) _
  cases ms with
  | nil =>
    unfold members
    rw [compactMembers, List.nil_append, membersWithin]
    exact bind_of_ok (nextKey_empty rest) _
  | cons m ms =>
    have hreads := readsAll_sorted (List.nil_append (m :: ms) ▸ hs) ht
    have hread := members_object hreads Spacing.none rest
    rw [compactMembers_cons, List.append_assoc]
    exact hread

/-! ## Values -/

/-- Where its numbers are integers, a written value begins as an item does. -/
theorem startsItem_compact {v : Json} (h : Integral v) : StartsItem v.compact := by
  cases h with
  | null => exact ⟨_, _, rfl, by decide, by decide⟩
  | bool b => cases b <;> exact ⟨_, _, rfl, by decide, by decide⟩
  | text s => exact ⟨_, _, rfl, by decide, by decide⟩
  | list _ => exact ⟨_, _, rfl, by decide, by decide⟩
  | object _ => exact ⟨_, _, rfl, by decide, by decide⟩
  | number i bounded =>
    rw [compact, scalarText, Number.text]
    · split
      · exact ⟨_, _, rfl, by decide, by decide⟩
      · obtain ⟨d, ds, hd, hdigit⟩ := decimal_eq_cons i.natAbs
        refine ⟨d, ds, hd, isBlank_of_isDigit hdigit, ?_⟩
        rintro rfl
        exact absurd hdigit (by decide)
    · intro _ h
      cases h
    · intro _ h
      cases h

/-- A written value is read back if it is a list or an object only where these are. -/
theorem valueWith_takes {list object : Reader Json} {v : Json} (hi : Integral v)
    (hl : ∀ items, v = .list items →
      ∀ tail, list (compactItems items ++ 0x5D :: tail) = .ok (v, tail))
    (ho : ∀ members, v = .object members →
      ∀ tail, object (compactMembers members ++ 0x7D :: tail) = .ok (v, tail)) :
    Takes (valueWith list object) v.compact v := by
  cases hi with
  | null => exact null_takes list object
  | bool b => exact bool_takes list object b
  | text s => exact text_takes list object s
  | number i bounded => exact integer_takes list object i bounded
  | @list items _ =>
    intro blanks tail hb _
    rw [valueWith_append list object hb, compact, List.cons_append, List.append_assoc, valueWith,
      skipBlanks_cons (by decide)]
    exact hl items rfl tail
  | @object members _ =>
    intro blanks tail hb _
    rw [valueWith_append list object hb, compact, List.cons_append, List.append_assoc, valueWith,
      skipBlanks_cons (by decide)]
    exact ho members rfl tail

/-- A value of integers is read back, in front of anything that may follow a value. -/
theorem value_takes {depth : Nat} {v : Json} (hk : Kept depth v) (hi : Integral v) :
    Takes (value depth) v.compact v := by
  induction depth generalizing v with
  | zero =>
    refine valueWith_takes hi (fun items hv => ?_) (fun members hv => ?_)
    · exact (hv ▸ hk : Kept 0 (.list items)).elim
    · exact (hv ▸ hk : Kept 0 (.object members)).elim
  | succ depth ih =>
    refine valueWith_takes hi (fun items hv tail => ?_) (fun members hv tail => ?_)
    · subst hv
      cases hi with
      | list hitems =>
        have htake : ItemsTake (value depth) compact items := fun item hm =>
          ⟨ih (hk item hm) (hitems item hm), startsItem_compact (hitems item hm)⟩
        have hread := map_of_ok (inList_items htake tail) fun acc => Json.list acc.reverse
        rw [List.reverse_reverse, ← compactItems_eq] at hread
        exact hread
    · subst hv
      cases hi with
      | object hmembers =>
        exact objectOf_compact hk.1 (fun m hm => ih (hk.2 m hm) (hmembers m hm)) tail

/-- A document of integers is read back, whatever blanks follow it. -/
theorem parse_compact {v : Json} (hk : Kept depthLimit v) (hi : Integral v) {blanks : Bytes}
    (hb : ∀ b ∈ blanks, isBlank b = true) : parse (v.compact ++ blanks) = .ok v :=
  readDocument_of_takes (value_takes hk hi) hb

end CniPlugin.Json
