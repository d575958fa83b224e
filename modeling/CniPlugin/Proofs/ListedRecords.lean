import CniPlugin.Proofs.ListedMembers
/-!
# Records are read from listed members

A value of a known kind is a free value that can be converted.  So where the members of an object
are free values, a reader of records folds them like the reader of free values does: a member with
a place of its own is converted and put there, if the place is still empty, and any other member is
passed over.

Results:
1. `typedText_readsAs`, `typedWord_readsAs`, `orNull_readsAs`: what the readers of known kinds
   convert.
2. `value_eq_word_iff`: the numerals that are read as integers of 32 bits.
3. `membersWithin_eq_ok_iff`: reading a record folds the members in the text.
4. `readDocument_eq_ok_iff_of_lists`: a record as a whole.
5. `exists_put_iff`, `lookup_of_put`: when the members of a key fit into one place, and what that
   holds then.
-/

namespace CniPlugin.Json

variable {α σ : Type}

/-! ## Definitions -/

/-- The reader takes the free values that can be converted. -/
def ReadsAs (depth : Nat) (reader : Reader α) (convert : Json → Option α) : Prop :=
  ∀ s a rest, reader s = .ok (a, rest) ↔ ∃ v, value depth s = .ok (v, rest) ∧ convert v = some a

/-- The string that a value is. -/
def text? : Json → Option String
  | .text t => some t
  | _ => none

/-- The integer of 32 bits that a value is. -/
def word? : Json → Option UInt32
  | .number (.integer i _) =>
    if 0 ≤ i ∧ i < UInt32.size then some (UInt32.ofNat i.toNat) else none
  | _ => none

/-- Nothing for null, and what any other value is converted to. -/
def nullOr (convert : Json → Option α) : Json → Option (Option α)
  | .null => some none
  | v => (convert v).map some

/-- Ahead are the digits of an integer of 32 bits, without a sign, a fraction and an exponent. -/
def WordAhead (s : Bytes) (n : UInt32) (rest : Bytes) : Prop :=
  ∃ b r digits, isDigit b = true ∧ skipBlanks s = b :: r ∧
    numeral false .endOfValue (b :: r) = .ok (⟨false, digits, [], none⟩, rest) ∧
    digitsFrom 0 digits = n.toNat

/-- Where a free value is ahead, the reader of a member takes it, and `step` says what becomes of
it. -/
def FoldsBy (depth : Nat) (member : String → σ → Reader σ)
    (step : σ → String × Json → Option σ) : Prop :=
  ∀ key acc s middle v rest, skipBlanks s = 0x3A :: middle → value depth middle = .ok (v, rest) →
    ∀ acc' rest', member key acc s = .ok (acc', rest') ↔ rest' = rest ∧ step acc (key, v) = some acc'

/-- What a member puts into a place, if the place is still empty. -/
def fillWith (convert : Json → Option α) (place : Option α) (v : Json) : Option α :=
  match place with
  | none => convert v
  | some _ => none

/-! ## Values of a known kind -/

variable {depth : Nat}

theorem text?_eq_some_iff {v : Json} {t : String} : text? v = some t ↔ v = .text t := by
  cases v <;> simp [text?]

theorem word?_eq_some_iff {v : Json} {n : UInt32} : word? v = some n ↔ v = ofWord n := by
  unfold word? ofWord
  split
  · next i bounded =>
    simp only [number.injEq, Number.integer.injEq]
    split
    · next hi =>
      obtain ⟨m, rfl⟩ : ∃ m : Nat, i = m := ⟨i.toNat, (Int.toNat_of_nonneg hi.1).symm⟩
      rw [Option.some.injEq, Int.toNat_natCast, Int.natCast_inj, ← UInt32.toNat_inj,
        UInt32.toNat_ofNat_of_lt' (Int.ofNat_lt.mp hi.2)]
    · next hi =>
      simp only [reduceCtorEq, false_iff]
      rintro rfl
      exact hi ⟨Int.natCast_nonneg _, Int.ofNat_lt.mpr n.toNat_lt⟩
  · next hnot =>
    simp only [reduceCtorEq, false_iff]
    rintro rfl
    exact hnot _ _ rfl

theorem typedText_readsAs (expected : Expected) : ReadsAs depth (typedText expected) text? := by
  intro s t rest
  simp only [text?_eq_some_iff, exists_eq_right, value_eq_text_iff]
  constructor
  · exact textBody_of_typedText
  · rintro ⟨r, hs, ht⟩
    rw [typedText, hs]
    exact ht

/-! ## Numbers -/

theorem numberAfterSign_eq_ok_iff {negative : Bool} {s rest : Bytes} {n : Number} :
    numberAfterSign negative s = .ok (n, rest) ↔
      ∃ m, numeral negative .endOfValue s = .ok (m, rest) ∧ m.value = .ok n := by
  constructor
  · intro h
    unfold numberAfterSign at h
    split at h
    · cases h
    · next m r hm =>
      split at h <;> cases h
      next hvalue => exact ⟨m, hm, hvalue⟩
  · rintro ⟨m, hm, hvalue⟩
    rw [numberAfterSign, hm]
    simp only [hvalue]

theorem negative_of_numeral {negative : Bool} {atEnd : Cause} {s rest : Bytes} {m : Numeral}
    (h : numeral negative atEnd s = .ok (m, rest)) : m.negative = negative := by
  obtain ⟨whole, s₁, -, h⟩ := bind_eq_ok_iff.mp h
  obtain ⟨fraction, s₂, -, h⟩ := bind_eq_ok_iff.mp h
  obtain ⟨exponent, s₃, -, h⟩ := bind_eq_ok_iff.mp h
  cases h
  rfl

theorem value_eq_number_iff {s rest : Bytes} {n : Number} :
    value depth s = .ok (.number n, rest) ↔
      (∃ r, skipBlanks s = 0x2D :: r ∧ numberAfterSign true r = .ok (n, rest)) ∨
        ∃ b r, isDigit b = true ∧ skipBlanks s = b :: r ∧
          numberAfterSign false (b :: r) = .ok (n, rest) := by
  rw [value_eq_ok_iff_of_flat (v := .number n) nofun nofun]
  constructor
  · intro h
    cases h with
    | minus hs hn => exact .inl ⟨_, hs, hn⟩
    | digit hb hs hn => exact .inr ⟨_, _, hb, hs, hn⟩
    | list hs hv | object hs hv => cases hv
  · rintro (⟨r, hs, hn⟩ | ⟨b, r, hb, hs, hn⟩)
    · exact .minus hs hn
    · exact .digit hb hs hn

theorem wordOfNumber_eq_ok_iff {n : Number} {a : UInt32} {s rest : Bytes} :
    wordOfNumber n s = .ok (a, rest) ↔ rest = s ∧ word? (.number n) = some a := by
  cases n with
  | integer i bounded =>
    simp only [wordOfNumber, word?]
    split <;> simp [and_comm, eq_comm]
  | float x => simp [wordOfNumber, word?]

theorem typedWord_readsAs : ReadsAs depth typedWord word? := by
  intro s a rest
  constructor
  · intro h
    unfold typedWord at h
    split at h
    · cases h
    · next b r hs =>
      split at h
      · next hstart =>
        obtain ⟨n, middle, hn, hword⟩ := bind_eq_ok_iff.mp h
        obtain ⟨rfl, hconvert⟩ := wordOfNumber_eq_ok_iff.mp hword
        have hb := eq_of_start hstart
        exact ⟨.number n, value_eq_number_iff.mpr (.inl ⟨r, hb ▸ hs, hn⟩), hconvert⟩
      · next hstart =>
        obtain ⟨n, middle, hn, hword⟩ := bind_eq_ok_iff.mp h
        obtain ⟨rfl, hconvert⟩ := wordOfNumber_eq_ok_iff.mp hword
        have hb := eq_of_start hstart
        exact ⟨.number n, value_eq_number_iff.mpr (.inr ⟨b, r, hb, hs, hn⟩), hconvert⟩
      · exact absurd h wrongType_ne_ok
  · rintro ⟨v, hv, hword⟩
    obtain rfl := word?_eq_some_iff.mp hword
    rw [typedWord]
    rcases value_eq_number_iff.mp hv with ⟨r, hs, hn⟩ | ⟨b, r, hb, hs, hn⟩
    · rw [hs]
      exact bind_eq_ok_iff.mpr ⟨_, rest, hn, wordOfNumber_eq_ok_iff.mpr ⟨rfl, hword⟩⟩
    · simp only [hs, start_of_digit hb]
      exact bind_eq_ok_iff.mpr ⟨_, rest, hn, wordOfNumber_eq_ok_iff.mpr ⟨rfl, hword⟩⟩

/-- An integer of 32 bits is read exactly from its digits. -/
theorem value_eq_word_iff {s rest : Bytes} {n : UInt32} :
    value depth s = .ok (ofWord n, rest) ↔ WordAhead s n rest := by
  rw [ofWord, value_eq_number_iff, WordAhead]
  simp only [numberAfterSign_eq_ok_iff]
  constructor
  · rintro (⟨r, hs, m, hm, hvalue⟩ | ⟨b, r, hb, hs, m, hm, hvalue⟩)
    · -- A numeral with a sign is below zero, or it is minus zero and no integer.
      obtain ⟨-, -, hzero, hsigned⟩ := Numeral.value_eq_integer_iff.mp hvalue
      rw [negative_of_numeral hm] at hzero hsigned
      simp only [signed, if_true] at hsigned
      exact absurd ⟨rfl, by omega⟩ hzero
    · obtain ⟨hfraction, hexponent, -, hsigned⟩ := Numeral.value_eq_integer_iff.mp hvalue
      have hnegative := negative_of_numeral hm
      obtain ⟨negative, digits, fraction, exponent⟩ := m
      cases hfraction
      cases hexponent
      cases hnegative
      exact ⟨b, r, digits, hb, hs, hm, Int.ofNat.inj hsigned⟩
  · rintro ⟨b, r, digits, hb, hs, hm, hdigits⟩
    refine .inr ⟨b, r, hb, hs, _, hm, Numeral.value_eq_integer_iff.mpr ⟨rfl, rfl, ?_, ?_⟩⟩
    · exact fun h => Bool.noConfusion h.1
    · exact congrArg Int.ofNat hdigits

/-! ## Null or a value -/

theorem value_readsAs : ReadsAs depth (value depth) some := by
  intro s v rest
  simp

/-- Blanks in front of a value are of no account. -/
theorem value_of_skipBlanks {s r : Bytes} {b : UInt8} (h : skipBlanks s = b :: r) :
    value depth (b :: r) = value depth s := by
  cases depth <;> rw [value, valueWith, valueWith, h, skipBlanks_of_cons h]

theorem not_valueAhead_nil {list object : Reader Json} {s rest : Bytes} {v : Json}
    (hs : skipBlanks s = []) : ¬ ValueAhead list object s v rest := by
  intro h
  rw [← valueWith_eq_ok_iff, valueWith, hs] at h
  cases h

/-- What begins as null does is null. -/
theorem eq_null_of_value {s r rest : Bytes} {v : Json} (hs : skipBlanks s = 0x6E :: r)
    (h : value depth s = .ok (v, rest)) : v = .null := by
  have hword : ∃ es, ((fun _ => Json.null) <$> word es) r = .ok (v, rest) := by
    refine ⟨restOfNull, ?_⟩
    cases depth <;> rw [value, valueWith, hs] at h <;> exact h
  obtain ⟨es, hword⟩ := hword
  obtain ⟨-, -, rfl⟩ := map_eq_ok_iff.mp hword
  rfl

theorem nullOr_of_ne {convert : Json → Option α} {v : Json} (h : v ≠ .null) :
    nullOr convert v = (convert v).map some := by
  cases v with
  | null => exact absurd rfl h
  | bool | number | text | list | object => rfl

theorem orNull_readsAs {reader : Reader α} {convert : Json → Option α}
    (h : ReadsAs depth reader convert) : ReadsAs depth (orNull reader) (nullOr convert) := by
  intro s a? rest
  unfold orNull
  split
  · next hs =>
    constructor
    · intro ho
      obtain ⟨a, ha, -⟩ := map_eq_ok_iff.mp ho
      obtain ⟨v, hv, -⟩ := (h _ _ _).mp ha
      cases depth <;> cases hv
    · rintro ⟨v, hv, -⟩
      cases depth <;> exact absurd (valueWith_eq_ok_iff.mp hv) (not_valueAhead_nil hs)
  · next b r hs =>
    split
    · next hb =>
      subst hb
      constructor
      · intro ho
        obtain ⟨⟨⟩, hword, rfl⟩ := map_eq_ok_iff.mp ho
        exact ⟨.null, value_eq_null_iff.mpr ⟨r, hs, hword⟩, rfl⟩
      · rintro ⟨v, hv, hconvert⟩
        obtain rfl := eq_null_of_value hs hv
        cases hconvert
        obtain ⟨r', hs', hword⟩ := value_eq_null_iff.mp hv
        rw [hs] at hs'
        cases hs'
        exact map_of_ok hword _
    · next hb =>
      constructor
      · intro ho
        obtain ⟨a, ha, rfl⟩ := map_eq_ok_iff.mp ho
        obtain ⟨v, hv, hconvert⟩ := (h _ _ _).mp ha
        rw [value_of_skipBlanks hs] at hv
        have hne : v ≠ .null := by
          rintro rfl
          exact value_ne_null hs hb rest hv
        exact ⟨v, hv, by rw [nullOr_of_ne hne, hconvert]; rfl⟩
      · rintro ⟨v, hv, hconvert⟩
        have hne : v ≠ .null := by
          rintro rfl
          exact value_ne_null hs hb rest hv
        rw [nullOr_of_ne hne] at hconvert
        obtain ⟨a, ha, rfl⟩ := Option.map_eq_some_iff.mp hconvert
        rw [← value_of_skipBlanks hs] at hv
        exact map_of_ok ((h _ _ _).mpr ⟨v, hv, ha⟩) some

/-! ## One member -/

theorem fillWith_eq_some_iff {convert : Json → Option α} {place : Option α} {v : Json} {a : α} :
    fillWith convert place v = some a ↔ place = none ∧ convert v = some a := by
  cases place <;> simp [fillWith]

section
variable {fields : List (Field σ)} {stray : Stray σ} {key : String} {acc acc' : σ}
  {s middle rest rest' : Bytes} {v : Json}

/-- A member with a place of its own is converted and put there, if that is still empty. -/
theorem readMember_fills {required : Bool} {get : σ → Option α} {set : α → σ → σ}
    {reader : Reader α} {convert : Json → Option α}
    (hf : fields.find? (·.key = key) = some (.of key required get set reader))
    (hr : ReadsAs depth reader convert) (hs : skipBlanks s = 0x3A :: middle)
    (hv : value depth middle = .ok (v, rest)) :
    readMember fields stray key acc s = .ok (acc', rest') ↔
      rest' = rest ∧ (fillWith convert (get acc) v).map (set · acc) = some acc' := by
  rw [readMember_eq_ok_iff hf, hs]
  constructor
  · rintro ⟨hnone, _, a, ⟨⟩, ha, rfl⟩
    obtain ⟨w, hw, hconvert⟩ := (hr _ _ _).mp ha
    rw [hv] at hw
    cases hw
    exact ⟨rfl, Option.map_eq_some_iff.mpr ⟨a, fillWith_eq_some_iff.mpr ⟨hnone, hconvert⟩, rfl⟩⟩
  · rintro ⟨rfl, hfill⟩
    obtain ⟨a, ha, rfl⟩ := Option.map_eq_some_iff.mp hfill
    obtain ⟨hnone, hconvert⟩ := fillWith_eq_some_iff.mp ha
    exact ⟨hnone, middle, a, rfl, (hr _ _ _).mpr ⟨v, hv, hconvert⟩, rfl⟩

/-- Any other member is passed over, since what is read as a free value can be passed over. -/
theorem readMember_passes (hf : fields.find? (·.key = key) = none)
    (hs : skipBlanks s = 0x3A :: middle) (hv : value depth middle = .ok (v, rest)) :
    readMember fields Stray.pass key acc s = .ok (acc', rest') ↔ rest' = rest ∧ acc = acc' := by
  have hpass : pass middle = .ok ((), rest) :=
    (value_passes depth middle middle middle v rest (Nat.le_refl _) rfl hv).1
  rw [readMember_of_unknown hf, Stray.pass, bind_of_ok (colon_eq_ok_iff.mpr hs), bind_of_ok hpass]
  constructor
  · intro h
    cases h
    exact ⟨rfl, rfl⟩
  · rintro ⟨rfl, rfl⟩
    rfl

end

/-! ## All members -/

section
variable {member : String → σ → Reader σ} {step : σ → String × Json → Option σ}

/-- Up to the closing brace the members are folded. -/
theorem membersWithin_eq_ok_iff (hm : FoldsBy depth member step) {rounds : Bytes} {first : Bool}
    {acc out : σ} {s rest rest' : Bytes} {ms : List (String × Json)}
    (h : MembersAhead depth first s ms rest) (hr : s.length ≤ rounds.length) :
    membersWithin member rounds first acc s = .ok (out, rest') ↔
      rest' = 0x7D :: rest ∧ ms.foldlM step acc = some out := by
  induction h generalizing acc rounds with
  | @close first s rest hs =>
    have hpos := length_of_skipBlanks hs
    obtain ⟨x, rounds, rfl⟩ := List.exists_cons_of_length_pos (l := rounds) (by omega)
    rw [membersWithin, bind_of_ok (nextKey_eq_none_iff.mpr ⟨rest, hs, rfl⟩)]
    constructor
    · intro h
      cases h
      exact ⟨rfl, rfl⟩
    · rintro ⟨rfl, ⟨⟩⟩
      rfl
  | @member first s s₁ s₂ s₃ rest key v ms hk hc hv hms ih =>
    -- Each part of a member takes bytes, so a round may be spent on it.
    have hkey := hk.length_lt
    have hcolon := length_of_skipBlanks hc
    have hvalue := length_of_value hv
    obtain ⟨x, rounds, rfl⟩ := List.exists_cons_of_length_pos (l := rounds) (by omega)
    rw [List.length_cons] at hr
    have hrounds : s₃.length ≤ rounds.length := by omega
    rw [membersWithin, bind_of_ok (nextKey_eq_some_iff.mpr hk), bind_eq_ok_iff, List.foldlM_cons]
    constructor
    · rintro ⟨acc₁, s₄, hmember, hrest⟩
      obtain ⟨rfl, hstep⟩ := (hm _ _ _ _ _ _ hc hv _ _).mp hmember
      rw [hstep]
      exact (ih hrounds).mp hrest
    · rintro ⟨hrest, hfold⟩
      obtain ⟨acc₁, hstep, hfold⟩ := Option.bind_eq_some_iff.mp hfold
      exact ⟨acc₁, s₃, (hm _ _ _ _ _ _ hc hv _ _).mpr ⟨rfl, hstep⟩,
        (ih hrounds).mpr ⟨hrest, hfold⟩⟩

end

/-! ## Records -/

/-- A record is read from an object if its members can be folded and no required field is
missing. -/
theorem readDocument_eq_ok_iff_of_lists {shape : Shape σ} {step : σ → String × Json → Option σ}
    (hm : FoldsBy (depthLimit - 1) (readMember shape.fields Stray.pass) step) {body : Bytes}
    {ms : List (String × Json)} (h : Lists body ms) {empty out : σ} :
    readDocument (shape.read empty) body = .ok out ↔
      ms.foldlM step empty = some out ∧ firstMissing shape.fields out = none := by
  obtain ⟨r, rest, hs, hms, hend⟩ := h
  have hfold (found : σ) (middle : Bytes) :
      members (readMember shape.fields Stray.pass) empty r = .ok (found, middle) ↔
        middle = 0x7D :: rest ∧ ms.foldlM step empty = some found :=
    membersWithin_eq_ok_iff hm hms (Nat.le_refl _)
  have hread (rest' : Bytes) : shape.read empty body = .ok (out, rest') ↔
      rest' = rest ∧ ms.foldlM step empty = some out ∧ firstMissing shape.fields out = none := by
    rw [Shape.read, hs]
    show inObject (recordMembers shape.fields Stray.pass empty) r = .ok (out, rest') ↔ _
    rw [inObject_eq_ok_iff]
    constructor
    · rintro ⟨middle, hmembers, hclose⟩
      obtain ⟨found, last, hread, hmissing⟩ := bind_eq_ok_iff.mp hmembers
      obtain ⟨rfl, hfound⟩ := (hfold found last).mp hread
      cases hnone : firstMissing shape.fields found with
      | some key =>
        rw [hnone] at hmissing
        cases hmissing
      | none =>
        rw [hnone] at hmissing
        cases hmissing
        rw [skipBlanks_cons (by decide)] at hclose
        cases hclose
        exact ⟨rfl, hfound, hnone⟩
    · rintro ⟨rfl, hfound, hnone⟩
      refine ⟨0x7D :: rest', ?_, skipBlanks_cons (by decide) rest'⟩
      rw [recordMembers, bind_of_ok ((hfold out _).mpr ⟨rfl, hfound⟩), hnone]
      rfl
  rw [readDocument_eq_ok_iff]
  simp only [hread]
  constructor
  · rintro ⟨_, ⟨-, hfound⟩, -⟩
    exact hfound
  · intro hfound
    exact ⟨rest, ⟨rfl, hfound⟩, hend⟩

/-! ## One place -/

section
variable {convert : Json → Option α} {key : String} {ms : List (String × Json)}

/-- A place after a further member. -/
def put (convert : Json → Option α) (place : Option α) (m : String × Json) : Option (Option α) :=
  (fillWith convert place m.2).map some

/-- An empty place stays empty or is filled by the one member there is. -/
theorem foldlM_put_eq_some_iff {after : Option α} :
    ms.foldlM (put convert) none = some after ↔
      ms = [] ∧ after = none ∨ ∃ m a, ms = [m] ∧ convert m.2 = some a ∧ after = some a := by
  cases ms with
  | nil => simp [eq_comm]
  | cons m ms =>
    rw [List.foldlM_cons]
    constructor
    · intro h
      obtain ⟨filled, hput, hrest⟩ := Option.bind_eq_some_iff.mp h
      obtain ⟨a, ha, rfl⟩ := Option.map_eq_some_iff.mp hput
      cases ms with
      | nil =>
        cases hrest
        exact .inr ⟨m, a, rfl, ha, rfl⟩
      | cons n ms =>
        -- The first member has filled the place, so there is none for a second.
        rw [List.foldlM_cons] at hrest
        obtain ⟨_, hsecond, -⟩ := Option.bind_eq_some_iff.mp hrest
        cases hsecond
    · rintro (⟨⟨⟩, -⟩ | ⟨_, a, ⟨⟩, ha, rfl⟩)
      rw [put, fillWith, ha]
      rfl

theorem mem_filter_key (members : List (String × Json)) {v : Json} :
    (key, v) ∈ members.filter (·.1 = key) ↔ (key, v) ∈ members := by
  simp

/-- The members of a key fit into one place if there is at most one and it can be converted. -/
theorem exists_put_iff :
    (∃ after, (ms.filter (·.1 = key)).foldlM (put convert) none = some after) ↔
      (ms.filter (·.1 = key)).length ≤ 1 ∧ ∀ v, (key, v) ∈ ms → ∃ a, convert v = some a := by
  simp only [foldlM_put_eq_some_iff, ← mem_filter_key ms]
  have hkey : ∀ m ∈ ms.filter (·.1 = key), m.1 = key :=
    fun m hm => of_decide_eq_true (List.mem_filter.mp hm).2
  generalize ms.filter (·.1 = key) = those at hkey ⊢
  constructor
  · rintro ⟨after, ⟨rfl, -⟩ | ⟨m, a, rfl, ha, -⟩⟩
    · exact ⟨Nat.zero_le 1, fun v hv => absurd hv List.not_mem_nil⟩
    · refine ⟨Nat.le_refl 1, fun v hv => ⟨a, ?_⟩⟩
      rw [← List.mem_singleton.mp hv] at ha
      exact ha
  · rintro ⟨hlength, hconvert⟩
    match those with
    | [] => exact ⟨none, .inl ⟨rfl, rfl⟩⟩
    | [(k, v)] =>
      obtain rfl : k = key := hkey _ List.mem_cons_self
      obtain ⟨a, ha⟩ := hconvert v List.mem_cons_self
      exact ⟨some a, .inr ⟨_, a, rfl, ha, rfl⟩⟩
    | _ :: _ :: _ =>
      simp only [List.length_cons] at hlength
      omega

/-- What a place holds is what the value of its key is converted to. -/
theorem lookup_of_put {after : Option α}
    (h : (ms.filter (·.1 = key)).foldlM (put convert) none = some after) :
    lookup key ms.reverse = none ∧ after = none ∨
      ∃ v a, lookup key ms.reverse = some v ∧ convert v = some a ∧ after = some a := by
  have hlookup : lookup key (ms.filter (·.1 = key)).reverse = lookup key ms.reverse := by
    rw [← List.filter_reverse]
    exact lookup_filter (p := (· = key)) (decide_eq_true rfl) ms.reverse
  have hkey : ∀ m ∈ ms.filter (·.1 = key), m.1 = key :=
    fun m hm => of_decide_eq_true (List.mem_filter.mp hm).2
  rw [← hlookup]
  rcases foldlM_put_eq_some_iff.mp h with ⟨hnil, rfl⟩ | ⟨m, a, hone, ha, rfl⟩
  · exact .inl ⟨by rw [hnil]; rfl, rfl⟩
  · rw [hone] at hkey ⊢
    refine .inr ⟨m.2, a, ?_, ha, rfl⟩
    rw [List.reverse_singleton, lookup, if_pos (hkey m (List.mem_singleton.mpr rfl)).symm]

theorem exists_nullOr_iff {v : Json} :
    (∃ a?, nullOr convert v = some a?) ↔ v = .null ∨ ∃ a, convert v = some a := by
  by_cases h : v = .null
  · simp [h, nullOr]
  · simp only [nullOr_of_ne h, h, false_or, Option.map_eq_some_iff]
    exact ⟨fun ⟨_, a, ha, _⟩ => ⟨a, ha⟩, fun ⟨a, ha⟩ => ⟨some a, a, ha, rfl⟩⟩

end

end CniPlugin.Json
