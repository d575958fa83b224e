import CniPlugin.Json.Free
import CniPlugin.Proofs.ReaderSteps
/-!
# Whatever is kept can be passed over

Passing over a value asks for less than keeping it: strings need not be well formed, numbers need
not be in range, and there is no limit to the depth.  So where a value is kept, passing over it
succeeds and leaves the same bytes.  The converse fails.

The two readers of lists divide the work differently: one looks for the comma in front of an item,
the other for the comma behind it.  They are compared right after an item, where both look for the
comma.  The same holds for objects.

Results:
1. `passText_of_textBytes`: a string that is kept can be passed over.
2. `value_passes`: so can any value that is kept, whatever the bytes that bound the passing.
3. `typedText_passes`, `orNull_passes`: so can a text, and what is null or can be passed over.
-/

namespace CniPlugin.Json

/-! ## Strings -/

theorem ok_of_prepend {bytes content rest : Bytes} {r : Except Failure (Bytes × Bytes)}
    (h : prepend bytes r = .ok (content, rest)) :
    ∃ more, r = .ok (more, rest) ∧ content = bytes ++ more := by
  unfold prepend at h
  split at h
  · next more other =>
    cases h
    exact ⟨more, rfl, rfl⟩
  · cases h

theorem passText_of_textBytes {s content rest : Bytes} (h : textBytes s = .ok (content, rest)) :
    passText s = .ok ((), rest) ∧ rest.length < s.length := by
  fun_induction textBytes s generalizing content with
  | case2 r =>
    cases h
    exact ⟨passText_quote _, by simp⟩
  | case9 h₁ h₂ h₃ h₄ high hh _ _ l₁ l₂ l₃ l₄ r low hl _ _ ih =>
    -- A pair of surrogates is passed over as two escapes.
    obtain ⟨more, hm, -⟩ := ok_of_prepend h
    obtain ⟨hp, hlen⟩ := ih hm
    refine ⟨?_, by simp only [List.length_cons]; omega⟩
    rw [passText_hex hh, passText_hex hl, hp]
  | case14 a b c d r n hn _ _ _ ih =>
    obtain ⟨more, hm, -⟩ := ok_of_prepend h
    obtain ⟨hp, hlen⟩ := ih hm
    refine ⟨?_, by simp only [List.length_cons]; omega⟩
    rw [passText_hex hn, hp]
  | case17 e r _ c hc _ ih =>
    obtain ⟨more, hm, -⟩ := ok_of_prepend h
    obtain ⟨hp, hlen⟩ := ih hm
    refine ⟨?_, by simp only [List.length_cons]; omega⟩
    rw [passText_letter hc, hp]
  | case19 b r h1 h2 h3 ih =>
    obtain ⟨more, hm, -⟩ := ok_of_prepend h
    obtain ⟨hp, hlen⟩ := ih hm
    refine ⟨?_, by simp only [List.length_cons]; omega⟩
    rw [passText_plain h1 h2 h3, hp]
  | case1 | case3 | case4 | case5 | case6 | case7 | case8 | case10 | case11 | case12 | case13
  | case15 | case16 | case18 => cases h

theorem passText_of_textBody {s rest : Bytes} {text : String} (h : textBody s = .ok (text, rest)) :
    passText s = .ok ((), rest) ∧ rest.length < s.length := by
  unfold textBody at h
  split at h
  · cases h
  · next content r ht =>
    split at h <;> cases h
    exact passText_of_textBytes ht

/-! ## Lists and objects -/

/-- On inputs of at most `n` bytes, wherever `value` succeeds `pass` does and leaves the same; and
`value` takes at least one byte.  There may be other blanks in front. -/
def PassesLike {α : Type} (n : Nat) (value : Reader α) (pass : Reader Unit) : Prop :=
  ∀ s t a rest, s.length ≤ n → skipBlanks s = skipBlanks t → value t = .ok (a, rest) →
    pass s = .ok ((), rest) ∧ rest.length < s.length

/-- What passing over items does right after an item. -/
def passMoreItems (pass : Reader Unit) (rounds : Bytes) : Reader Unit := do
  if ← passItemEnd then passItems pass rounds else Pure.pure ()

/-- What passing over members does right after a member. -/
def passMoreMembers (pass : Reader Unit) (rounds : Bytes) : Reader Unit := do
  if ← passMemberEnd then passMembers pass rounds else Pure.pure ()

theorem passItems_cons {pass : Reader Unit} {x : UInt8} {rounds s middle : Bytes}
    (h : pass s = .ok ((), middle)) :
    passItems pass (x :: rounds) s = passMoreItems pass rounds middle := by
  rw [passItems]
  exact bind_of_ok h _

theorem passMoreItems_end {pass : Reader Unit} {rounds s r : Bytes}
    (h : skipBlanks s = 0x5D :: r) : passMoreItems pass rounds s = .ok ((), r) := by
  have he : passItemEnd s = .ok (false, r) := by
    rw [passItemEnd, h]
    rfl
  rw [passMoreItems, bind_of_ok he]
  rfl

theorem passMoreItems_comma {pass : Reader Unit} {rounds s r : Bytes}
    (h : skipBlanks s = 0x2C :: r) :
    passMoreItems pass rounds s = passItems pass rounds r := by
  have he : passItemEnd s = .ok (true, r) := by
    rw [passItemEnd, h]
    rfl
  rw [passMoreItems, bind_of_ok he]
  rfl

/-- Where the items after an item are kept, they can be passed over. -/
theorem passMoreItems_of_itemsWithin {σ : Type} {item : σ → Reader σ} {pass : Reader Unit} {n : Nat}
    (hp : ∀ acc, PassesLike n (item acc) pass) {rounds fuel s middle rest : Bytes} {acc out : σ}
    (hn : s.length ≤ n) (hf : s.length ≤ fuel.length)
    (h : itemsWithin item rounds false acc s = .ok (out, middle))
    (hc : skipBlanks middle = 0x5D :: rest) :
    passMoreItems pass fuel s = .ok ((), rest) ∧ rest.length < s.length := by
  -- The induction is on the rounds of the reader that keeps; those of the other only have to last.
  induction rounds generalizing s acc fuel with
  | nil => cases h
  | cons x rounds ih =>
    obtain ⟨more, s₁, hk, h⟩ := bind_eq_ok_iff.mp h
    rcases nextItem_of_ok hk with ⟨rfl, r, hs, rfl⟩ | ⟨-, hfirst, -⟩ |
      ⟨rfl, -, r, c, t, hs, hr, rfl⟩
    · cases h
      rw [skipBlanks_cons (by decide)] at hc
      cases hc
      exact ⟨passMoreItems_end hs, length_of_skipBlanks hs⟩
    · cases hfirst
    · obtain ⟨acc₁, s₂, hi, h⟩ := bind_eq_ok_iff.mp h
      have hrs := length_of_skipBlanks hs
      -- The comma leaves fewer bytes than there are rounds.
      obtain ⟨y, fuel, rfl⟩ : ∃ y tail, fuel = y :: tail :=
        List.exists_cons_of_length_pos (by omega)
      rw [List.length_cons] at hf
      obtain ⟨hpass, hlen⟩ := hp acc r (c :: t) acc₁ s₂ (by omega)
        (by rw [hr, skipBlanks_of_cons hr]) hi
      have hfuel : s₂.length ≤ fuel.length := by omega
      obtain ⟨hmore, hrest⟩ := ih (by omega) hfuel h
      refine ⟨?_, by omega⟩
      rw [passMoreItems_comma hs, passItems_cons hpass, hmore]

theorem passList_of_inList {σ : Type} {item : σ → Reader σ} {pass : Reader Unit} {n : Nat}
    (hp : ∀ acc, PassesLike n (item acc) pass) {fuel s rest : Bytes} {acc out : σ}
    (hn : s.length ≤ n) (hf : s.length ≤ fuel.length)
    (h : inList (items item acc) s = .ok (out, rest)) :
    passList pass fuel s = .ok ((), rest) ∧ rest.length < s.length := by
  obtain ⟨middle, hi, hc⟩ := inList_eq_ok_iff.mp h
  cases s with
  | nil => cases hi
  | cons x rounds =>
    obtain ⟨more, s₁, hk, hi⟩ := bind_eq_ok_iff.mp hi
    unfold passList
    rcases nextItem_of_ok hk with ⟨rfl, r, hs, rfl⟩ | ⟨rfl, -, b, r, hb, hs, rfl⟩ | ⟨-, hfirst, -⟩
    · cases hi
      rw [skipBlanks_cons (by decide)] at hc
      cases hc
      rw [hs]
      exact ⟨rfl, length_of_skipBlanks hs⟩
    · obtain ⟨acc₁, s₂, hi, hmore⟩ := bind_eq_ok_iff.mp hi
      have hlen := length_of_skipBlanks hs
      obtain ⟨y, fuel, rfl⟩ : ∃ y tail, fuel = y :: tail :=
        List.exists_cons_of_length_pos (by omega)
      simp only [List.length_cons] at hn hf hlen
      obtain ⟨hpass, hlen₂⟩ := hp acc (b :: r) (b :: r) acc₁ s₂
        (by rw [List.length_cons]; omega) rfl hi
      rw [List.length_cons] at hlen₂
      have hfuel : s₂.length ≤ fuel.length := by omega
      obtain ⟨hrest, hlen₃⟩ := passMoreItems_of_itemsWithin hp (by omega) hfuel hmore hc
      rw [hs]
      refine ⟨?_, by rw [List.length_cons]; omega⟩
      -- From the first item on, the two readers meet right behind it.
      simp only [hb, if_false]
      rw [passItems_cons hpass, hrest]
    · cases hfirst

theorem passKey_of_textBody {s r rest : Bytes} {key : String} (hs : skipBlanks s = 0x22 :: r)
    (h : textBody r = .ok (key, rest)) :
    passKey s = .ok ((), rest) ∧ rest.length < s.length := by
  obtain ⟨hp, hlen⟩ := passText_of_textBody h
  have := length_of_skipBlanks hs
  refine ⟨?_, by omega⟩
  rw [passKey, hs]
  exact hp

theorem passMembers_cons {pass : Reader Unit} {x : UInt8} {rounds s s₁ s₂ middle : Bytes}
    (hk : passKey s = .ok ((), s₁)) (hc : colon s₁ = .ok ((), s₂))
    (h : pass s₂ = .ok ((), middle)) :
    passMembers pass (x :: rounds) s = passMoreMembers pass rounds middle := by
  rw [passMembers, bind_of_ok hk, bind_of_ok hc, bind_of_ok h]
  rfl

theorem passMoreMembers_end {pass : Reader Unit} {rounds s r : Bytes}
    (h : skipBlanks s = 0x7D :: r) : passMoreMembers pass rounds s = .ok ((), r) := by
  have he : passMemberEnd s = .ok (false, r) := by
    rw [passMemberEnd, h]
    rfl
  rw [passMoreMembers, bind_of_ok he]
  rfl

theorem passMoreMembers_comma {pass : Reader Unit} {rounds s r : Bytes}
    (h : skipBlanks s = 0x2C :: r) :
    passMoreMembers pass rounds s = passMembers pass rounds r := by
  have he : passMemberEnd s = .ok (true, r) := by
    rw [passMemberEnd, h]
    rfl
  rw [passMoreMembers, bind_of_ok he]
  rfl

/-- What follows a key is a colon and something that can be passed over. -/
def MemberPassesLike {σ : Type} (n : Nat) (member : String → σ → Reader σ) (pass : Reader Unit) :
    Prop :=
  ∀ key acc s out rest, s.length ≤ n → member key acc s = .ok (out, rest) →
    ∃ middle, colon s = .ok ((), middle) ∧ pass middle = .ok ((), rest) ∧ rest.length < s.length

/-- Where the members after a member are kept, they can be passed over. -/
theorem passMoreMembers_of_membersWithin {σ : Type} {member : String → σ → Reader σ}
    {pass : Reader Unit} {n : Nat} (hp : MemberPassesLike n member pass)
    {rounds fuel s middle rest : Bytes} {acc out : σ}
    (hn : s.length ≤ n) (hf : s.length ≤ fuel.length)
    (h : membersWithin member rounds false acc s = .ok (out, middle))
    (hc : skipBlanks middle = 0x7D :: rest) :
    passMoreMembers pass fuel s = .ok ((), rest) ∧ rest.length < s.length := by
  induction rounds generalizing s acc fuel with
  | nil => cases h
  | cons x rounds ih =>
    obtain ⟨key?, s₁, hk, h⟩ := bind_eq_ok_iff.mp h
    rcases nextKey_of_ok hk with ⟨rfl, r, hs, rfl⟩ |
      ⟨key, rfl, ⟨hfirst, -⟩ | ⟨-, r, t, hs, hr, ht⟩⟩
    · cases h
      rw [skipBlanks_cons (by decide)] at hc
      cases hc
      exact ⟨passMoreMembers_end hs, length_of_skipBlanks hs⟩
    · cases hfirst
    · obtain ⟨acc₁, s₂, hi, h⟩ := bind_eq_ok_iff.mp h
      have hrs := length_of_skipBlanks hs
      obtain ⟨y, fuel, rfl⟩ : ∃ y tail, fuel = y :: tail :=
        List.exists_cons_of_length_pos (by omega)
      rw [List.length_cons] at hf
      obtain ⟨hkey, hlen₁⟩ := passKey_of_textBody hr ht
      obtain ⟨s₃, hcolon, hpass, hlen₂⟩ := hp key acc s₁ acc₁ s₂ (by omega) hi
      have hfuel : s₂.length ≤ fuel.length := by omega
      obtain ⟨hmore, hrest⟩ := ih (by omega) hfuel h
      refine ⟨?_, by omega⟩
      rw [passMoreMembers_comma hs, passMembers_cons hkey hcolon hpass, hmore]

theorem passObject_of_inObject {σ : Type} {member : String → σ → Reader σ}
    {pass : Reader Unit} {n : Nat} (hp : MemberPassesLike n member pass)
    {fuel s rest : Bytes} {acc out : σ} (hn : s.length ≤ n) (hf : s.length ≤ fuel.length)
    (h : inObject (members member acc) s = .ok (out, rest)) :
    passObject pass fuel s = .ok ((), rest) ∧ rest.length < s.length := by
  obtain ⟨middle, hi, hc⟩ := inObject_eq_ok_iff.mp h
  cases s with
  | nil => cases hi
  | cons x rounds =>
    obtain ⟨key?, s₁, hk, hi⟩ := bind_eq_ok_iff.mp hi
    unfold passObject
    rcases nextKey_of_ok hk with ⟨rfl, r, hs, rfl⟩ |
      ⟨key, rfl, ⟨-, r, hs, ht⟩ | ⟨hfirst, -⟩⟩
    · cases hi
      rw [skipBlanks_cons (by decide)] at hc
      cases hc
      rw [hs]
      exact ⟨rfl, length_of_skipBlanks hs⟩
    · obtain ⟨acc₁, s₂, hi, hmore⟩ := bind_eq_ok_iff.mp hi
      obtain ⟨y, fuel, rfl⟩ : ∃ y tail, fuel = y :: tail :=
        List.exists_cons_of_length_pos (by simp only [List.length_cons] at hf; omega)
      obtain ⟨hkey, hlen₁⟩ := passKey_of_textBody (skipBlanks_of_cons hs) ht
      have hlen := length_of_skipBlanks hs
      simp only [List.length_cons] at hn hf hlen hlen₁
      obtain ⟨s₃, hcolon, hpass, hlen₂⟩ := hp key acc s₁ acc₁ s₂ (by omega) hi
      have hfuel : s₂.length ≤ fuel.length := by omega
      obtain ⟨hrest, hlen₃⟩ := passMoreMembers_of_membersWithin hp (by omega) hfuel hmore hc
      rw [hs]
      refine ⟨?_, by rw [List.length_cons]; omega⟩
      show passMembers pass (y :: fuel) (0x22 :: r) = _
      rw [passMembers_cons hkey hcolon hpass, hrest]
    · cases hfirst

/-! ## Values -/

theorem PassesLike.map {α β : Type} {n : Nat} {value : Reader α} {pass : Reader Unit}
    (hp : PassesLike n value pass) (f : α → β) : PassesLike n (f <$> value) pass := by
  intro s t b rest hn hst h
  obtain ⟨a, ha, -⟩ := map_eq_ok_iff.mp h
  exact hp s t a rest hn hst ha

theorem PassesLike.member {n : Nat} {value : Reader Json} {pass : Reader Unit}
    (hp : PassesLike n value pass) :
    MemberPassesLike n (fun key acc => do
      colon
      let v ← value
      pure (insert key v acc)) pass := by
  intro key acc s out rest hn h
  obtain ⟨⟨⟩, middle, hc, h⟩ := bind_eq_ok_iff.mp h
  obtain ⟨v, last, hv, h⟩ := bind_eq_ok_iff.mp h
  cases h
  have hlen := length_of_skipBlanks (colon_eq_ok_iff.mp hc)
  obtain ⟨hpass, hlen₂⟩ := hp middle middle v rest (by omega) rfl hv
  exact ⟨middle, hc, hpass, by omega⟩

/-- What passing over lists and objects has to do for the values that hold them. -/
theorem passWithin_of_valueWith {list object : Reader Json} {deeper : Bytes} (x : UInt8)
    (hl : ∀ s v rest, s.length ≤ deeper.length → list s = .ok (v, rest) →
      passList (passWithin deeper) deeper s = .ok ((), rest) ∧ rest.length < s.length)
    (ho : ∀ s v rest, s.length ≤ deeper.length → object s = .ok (v, rest) →
      passObject (passWithin deeper) deeper s = .ok ((), rest) ∧ rest.length < s.length) :
    PassesLike (x :: deeper).length (valueWith list object) (passWithin (x :: deeper)) := by
  intro s t v rest hn hst h
  unfold valueWith at h
  split at h
  · cases h
  · next b r ht =>
    rw [ht] at hst
    have hlen := length_of_skipBlanks hst
    rw [List.length_cons] at hn
    have known : ∀ (es : Bytes) (kept : Json), ((fun _ => kept) <$> word es) r = .ok (v, rest) →
        word es r = .ok ((), rest) ∧ rest.length < s.length := by
      intro es kept hword
      obtain ⟨⟨⟩, hw, -⟩ := map_eq_ok_iff.mp hword
      have hr := congrArg List.length (eq_append_of_word hw)
      rw [List.length_append] at hr
      exact ⟨hw, by omega⟩
    have number : ∀ (negative : Bool) (start : Bytes), start.length ≤ s.length →
        (Json.number <$> numberAfterSign negative) start = .ok (v, rest) →
        ((fun _ => ()) <$> numeral negative .invalidNumber) start = .ok ((), rest) ∧
          rest.length < s.length := by
      intro negative start hstart hnumber
      obtain ⟨k, hk, -⟩ := map_eq_ok_iff.mp hnumber
      obtain ⟨m, hm⟩ := numeral_of_numberAfterSign hk
      have hr := length_of_numeral hm
      exact ⟨map_of_ok (numeral_of_ok hm .invalidNumber) _, by omega⟩
    rw [passWithin]
    simp only [hst]
    cases hb : Start.of b with
    | null =>
      simp only [hb] at h ⊢
      exact known _ _ h
    | true =>
      simp only [hb] at h ⊢
      exact known _ _ h
    | false =>
      simp only [hb] at h ⊢
      exact known _ _ h
    | minus =>
      simp only [hb] at h ⊢
      exact number true r (by omega) h
    | digit =>
      simp only [hb] at h ⊢
      exact number false (b :: r) (by rw [List.length_cons]; omega) h
    | text =>
      simp only [hb] at h ⊢
      obtain ⟨text, htext, -⟩ := map_eq_ok_iff.mp h
      obtain ⟨hp, hr⟩ := passText_of_textBody htext
      exact ⟨hp, by omega⟩
    | list =>
      simp only [hb] at h ⊢
      obtain ⟨hp, hr⟩ := hl r v rest (by omega) h
      exact ⟨hp, by omega⟩
    | object =>
      simp only [hb] at h ⊢
      obtain ⟨hp, hr⟩ := ho r v rest (by omega) h
      exact ⟨hp, by omega⟩
    | none =>
      simp only [hb] at h
      cases h

/-- No value takes no byte. -/
theorem valueWith_passes_nothing {list object : Reader Json} {pass : Reader Unit} :
    PassesLike 0 (valueWith list object) pass := by
  intro s t v rest hn hst h
  rw [List.eq_nil_of_length_eq_zero (Nat.le_zero.mp hn)] at hst
  rw [valueWith, ← hst] at h
  cases h

/-- A value that is kept can be passed over, however deep it may be nested, as long as there are as
many bytes to bound the passing as there are ahead. -/
theorem value_passes (depth : Nat) (fuel : Bytes) :
    PassesLike fuel.length (value depth) (passWithin fuel) := by
  -- A level of nesting takes a bracket, so the bytes that bound the passing last as long.
  induction depth generalizing fuel with
  | zero =>
    cases fuel with
    | nil => exact valueWith_passes_nothing
    | cons x deeper =>
      rw [value]
      exact passWithin_of_valueWith x (fun _ _ _ _ h => by cases h) (fun _ _ _ _ h => by cases h)
  | succ depth ih =>
    cases fuel with
    | nil => exact valueWith_passes_nothing
    | cons x deeper =>
      rw [value]
      refine passWithin_of_valueWith x (fun s v rest hn h => ?_) (fun s v rest hn h => ?_)
      · obtain ⟨acc, hacc, -⟩ := map_eq_ok_iff.mp h
        exact passList_of_inList (fun acc => (ih deeper).map _) hn hn hacc
      · obtain ⟨acc, hacc, -⟩ := map_eq_ok_iff.mp h
        exact passObject_of_inObject (ih deeper).member hn hn hacc

theorem typedText_passes (expected : Expected) (fuel : Bytes) :
    PassesLike fuel.length (typedText expected) (passWithin fuel) := by
  intro s t text rest hn hst h
  obtain ⟨r, hr, hbody⟩ := textBody_of_typedText h
  rw [hr] at hst
  have hlen := length_of_skipBlanks hst
  cases fuel with
  | nil =>
    rw [List.length_nil] at hn
    omega
  | cons x deeper =>
    obtain ⟨hp, hlen₂⟩ := passText_of_textBody hbody
    refine ⟨?_, by omega⟩
    rw [passWithin]
    simp only [hst]
    exact hp

theorem orNull_passes {α : Type} {value : Reader α} {fuel : Bytes}
    (hp : PassesLike fuel.length value (passWithin fuel)) :
    PassesLike fuel.length (orNull value) (passWithin fuel) := by
  intro s t a rest hn hst h
  unfold orNull at h
  split at h
  · next ht =>
    obtain ⟨v, hv, -⟩ := map_eq_ok_iff.mp h
    exact hp s [] v rest hn (hst.trans ht) hv
  · next b r ht =>
    split at h
    · next hb =>
      obtain ⟨⟨⟩, hw, -⟩ := map_eq_ok_iff.mp h
      rw [ht, hb] at hst
      have hlen := length_of_skipBlanks hst
      have hr := congrArg List.length (eq_append_of_word hw)
      rw [List.length_append] at hr
      cases fuel with
      | nil =>
        rw [List.length_nil] at hn
        omega
      | cons x deeper =>
        refine ⟨?_, by omega⟩
        rw [passWithin]
        simp only [hst]
        exact hw
    · obtain ⟨v, hv, -⟩ := map_eq_ok_iff.mp h
      exact hp s (b :: r) v rest hn (by rw [hst, ht, skipBlanks_of_cons ht]) hv

end CniPlugin.Json
