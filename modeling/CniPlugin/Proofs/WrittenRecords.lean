import CniPlugin.Proofs.WrittenTokens
/-!
# Written records are read back

Both layouts write the members of an object in the same way and differ only in the blanks between
the tokens.  A record is read back from either, as soon as each member alone is.

Results:
1. `compact_object`, `indentedAt_object`: both layouts are one up to blanks.
2. `membersWithin_more`: written members are read one after the other.
3. `shape_takes`: a written record is read back.
4. `readDocument_of_takes`: so is a document, whatever blanks follow it.
-/

namespace CniPlugin.Json

/-! ## Layout -/

/-- The blanks of a written object. -/
structure Spacing where
  /-- In front of a key. -/
  before : Bytes
  /-- Behind a colon. -/
  after : Bytes
  /-- In front of the closing brace. -/
  close : Bytes
  blank_before : ∀ b ∈ before, isBlank b = true
  blank_after : ∀ b ∈ after, isBlank b = true
  blank_close : ∀ b ∈ close, isBlank b = true

namespace Spacing

/-- A member whose value is written as the given text. -/
def member (spacing : Spacing) (key : String) (text : Bytes) : Bytes :=
  spacing.before ++ (quote key ++ 0x3A :: (spacing.after ++ text))

/-- The members after the first. -/
def more (spacing : Spacing) (ms : List (String × Bytes)) : Bytes :=
  ms.flatMap fun m => 0x2C :: spacing.member m.1 m.2

/-- An object with at least one member. -/
def object (spacing : Spacing) (m : String × Bytes) (ms : List (String × Bytes)) : Bytes :=
  0x7B :: (spacing.member m.1 m.2 ++ (spacing.more ms ++ (spacing.close ++ [0x7D])))

/-- No blanks. -/
def none : Spacing := ⟨[], [], [], by simp, by simp, by simp⟩

theorem blank_newLine (level : Nat) : ∀ b ∈ newLine level, isBlank b = true := by
  intro b hb
  rcases List.mem_cons.mp hb with rfl | hb
  · rfl
  · rw [List.eq_of_mem_replicate hb]
    rfl

/-- One member per line, in an object that starts at the given level. -/
def lines (level : Nat) : Spacing where
  before := newLine (level + 1)
  after := [0x20]
  close := newLine level
  blank_before := blank_newLine (level + 1)
  blank_after b hb := by
    rw [List.mem_singleton.mp hb]
    rfl
  blank_close := blank_newLine level

end Spacing

theorem compactMembers_cons (m : String × Json) (ms : List (String × Json)) :
    compactMembers (m :: ms) = Spacing.none.member m.1 m.2.compact ++
      Spacing.none.more (ms.map fun m => (m.1, m.2.compact)) := by
  induction ms generalizing m with
  | nil => simp [compactMembers, Spacing.member, Spacing.more, Spacing.none]
  | cons next ms ih =>
    rw [compactMembers, ih next]
    simp [Spacing.member, Spacing.more, Spacing.none]

theorem indentedMembers_cons (level : Nat) (m : String × Json) (ms : List (String × Json)) :
    indentedMembers (level + 1) (m :: ms) =
      (Spacing.lines level).member m.1 (indentedAt (level + 1) m.2) ++
        (Spacing.lines level).more (ms.map fun m => (m.1, indentedAt (level + 1) m.2)) := by
  induction ms generalizing m with
  | nil => simp [indentedMembers, Spacing.member, Spacing.more, Spacing.lines]
  | cons next ms ih =>
    rw [indentedMembers, ih next]
    simp [Spacing.member, Spacing.more, Spacing.lines]

theorem compact_object (m : String × Json) (ms : List (String × Json)) :
    (Json.object (m :: ms)).compact =
      Spacing.none.object (m.1, m.2.compact) (ms.map fun m => (m.1, m.2.compact)) := by
  rw [compact, compactMembers_cons, Spacing.object, List.append_assoc]
  rfl

theorem indentedAt_object (level : Nat) (m : String × Json) (ms : List (String × Json)) :
    indentedAt level (.object (m :: ms)) =
      (Spacing.lines level).object (m.1, indentedAt (level + 1) m.2)
        (ms.map fun m => (m.1, indentedAt (level + 1) m.2)) := by
  rw [indentedAt, indentedMembers_cons, Spacing.object, List.append_assoc, List.append_assoc]
  rfl

/-! ## Members -/

variable {σ : Type}

/-- Read one by one, the written members take the draft `d` to `d'`. -/
inductive ReadsAll (member : String → σ → Reader σ) : List (String × Bytes) → σ → σ → Prop
  | nil (d : σ) : ReadsAll member [] d d
  | cons {key : String} {text : Bytes} {ms : List (String × Bytes)} {d d₁ d' : σ} :
      (∀ blanks tail, (∀ b ∈ blanks, isBlank b = true) → Follows tail →
        member key d (0x3A :: (blanks ++ (text ++ tail))) = .ok (d₁, tail)) →
      ReadsAll member ms d₁ d' → ReadsAll member ((key, text) :: ms) d d'

theorem follows_blanks {blanks : Bytes} (h : ∀ b ∈ blanks, isBlank b = true) : Follows blanks := by
  intro b r hb
  exact .inl (h b (by rw [hb]; exact List.mem_cons_self))

/-- What stands behind a member is a comma, a blank or the closing brace. -/
theorem follows_more (spacing : Spacing) (ms : List (String × Bytes)) (rest : Bytes) :
    Follows (spacing.more ms ++ (spacing.close ++ 0x7D :: rest)) := by
  cases ms with
  | cons m ms => exact follows_comma _
  | nil =>
    intro b r h
    cases hc : spacing.close with
    | nil =>
      rw [hc] at h
      cases h
      exact .inr (.inr (.inr rfl))
    | cons c cs =>
      rw [hc] at h
      cases h
      exact .inl (spacing.blank_close _ (by rw [hc]; exact List.mem_cons_self))

theorem nextKey_first {blanks : Bytes} (hb : ∀ b ∈ blanks, isBlank b = true) (key : String)
    (r : Bytes) : nextKey true (blanks ++ (quote key ++ r)) = .ok (some key, r) := by
  rw [nextKey, skipBlanks_append hb, quote_append, skipBlanks_cons (by decide)]
  exact map_of_ok (textBody_escaped key r) some

theorem nextKey_comma {blanks : Bytes} (hb : ∀ b ∈ blanks, isBlank b = true) (key : String)
    (r : Bytes) : nextKey false (0x2C :: (blanks ++ (quote key ++ r))) = .ok (some key, r) := by
  rw [nextKey, skipBlanks_cons (by decide)]
  simp only [skipBlanks_append hb, quote_append, skipBlanks_cons (show isBlank 0x22 = false by rfl)]
  exact map_of_ok (textBody_escaped key r) some

theorem nextKey_close {blanks : Bytes} (hb : ∀ b ∈ blanks, isBlank b = true) (rest : Bytes) :
    nextKey false (blanks ++ 0x7D :: rest) = .ok (none, 0x7D :: rest) := by
  rw [nextKey, skipBlanks_append hb, skipBlanks_cons (by decide)]
  rfl

/-- Written members are read one after the other up to the closing brace. -/
theorem membersWithin_more {member : String → σ → Reader σ} {ms : List (String × Bytes)} {d d' : σ}
    (h : ReadsAll member ms d d') (spacing : Spacing) {rounds : Bytes}
    (hr : ms.length < rounds.length) (rest : Bytes) :
    membersWithin member rounds false d (spacing.more ms ++ (spacing.close ++ 0x7D :: rest)) =
      .ok (d', 0x7D :: rest) := by
  induction h generalizing rounds with
  | nil d =>
    obtain ⟨x, rounds, rfl⟩ := List.exists_cons_of_length_pos (Nat.zero_lt_of_lt hr)
    rw [membersWithin]
    exact bind_of_ok (nextKey_close spacing.blank_close rest) _
  | @cons key text ms d d₁ d' hm _ ih =>
    obtain ⟨x, rounds, rfl⟩ := List.exists_cons_of_length_pos (Nat.zero_lt_of_lt hr)
    have hshape : spacing.more ((key, text) :: ms) ++ (spacing.close ++ 0x7D :: rest) =
        0x2C :: (spacing.before ++ (quote key ++ 0x3A :: (spacing.after ++
          (text ++ (spacing.more ms ++ (spacing.close ++ 0x7D :: rest)))))) := by
      simp [Spacing.more, Spacing.member]
    rw [hshape, membersWithin, bind_of_ok (nextKey_comma spacing.blank_before key _)]
    simp only
    rw [bind_of_ok (hm spacing.after _ spacing.blank_after (follows_more spacing ms rest))]
    exact ih (Nat.lt_of_succ_lt_succ hr)

theorem length_le_more (spacing : Spacing) (ms : List (String × Bytes)) :
    ms.length ≤ (spacing.more ms).length := by
  induction ms with
  | nil => exact Nat.zero_le _
  | cons m ms ih =>
    have hcons : spacing.more (m :: ms) =
        0x2C :: (spacing.member m.1 m.2 ++ spacing.more ms) := rfl
    rw [hcons, List.length_cons, List.length_cons, List.length_append]
    omega

/-- The members of a written object, read from behind the opening brace. -/
theorem members_object {member : String → σ → Reader σ} {m : String × Bytes}
    {ms : List (String × Bytes)} {d d' : σ} (h : ReadsAll member (m :: ms) d d')
    (spacing : Spacing) (rest : Bytes) :
    members member d (spacing.member m.1 m.2 ++ (spacing.more ms ++
      (spacing.close ++ 0x7D :: rest))) = .ok (d', 0x7D :: rest) := by
  cases h with
  | @cons key text _ _ d₁ _ hm hms =>
    have hshape : spacing.member key text ++ (spacing.more ms ++ (spacing.close ++ 0x7D :: rest)) =
        spacing.before ++ (quote key ++ 0x3A :: (spacing.after ++
          (text ++ (spacing.more ms ++ (spacing.close ++ 0x7D :: rest))))) := by
      simp [Spacing.member]
    rw [hshape]
    unfold members
    -- The rounds are the bytes ahead, of which there is one for the first member.
    generalize hi : spacing.before ++ (quote key ++ 0x3A :: (spacing.after ++
      (text ++ (spacing.more ms ++ (spacing.close ++ 0x7D :: rest))))) = input
    have hlen : ms.length + 1 < input.length := by
      have := length_le_more spacing ms
      rw [← hi]
      simp only [List.length_append, List.length_cons]
      omega
    obtain ⟨x, rounds, hx⟩ := List.exists_cons_of_length_pos (Nat.zero_lt_of_lt hlen)
    have hrounds : ms.length < rounds.length := by
      rw [hx, List.length_cons] at hlen
      omega
    have hwithin : membersWithin member (x :: rounds) true d input = .ok (d', 0x7D :: rest) := by
      rw [← hi, membersWithin, bind_of_ok (nextKey_first spacing.blank_before key _)]
      simp only
      rw [bind_of_ok (hm spacing.after _ spacing.blank_after (follows_more spacing ms rest))]
      exact membersWithin_more hms spacing hrounds rest
    rw [← hx] at hwithin
    exact hwithin

/-! ## Records -/

/-- A member of a known key that is not there yet, and whose value is taken. -/
theorem readMember_of_takes {α : Type} {fields : List (Field σ)} {stray : Stray σ} {key : String}
    {required : Bool} {get : σ → Option α} {set : α → σ → σ} {reader : Reader α} {text : Bytes}
    {v : α} {d : σ}
    (hf : fields.find? (·.key = key) = some (.of key required get set reader))
    (hd : get d = none) (ht : Takes reader text v) (blanks tail : Bytes)
    (hb : ∀ b ∈ blanks, isBlank b = true) (htail : Follows tail) :
    readMember fields stray key d (0x3A :: (blanks ++ (text ++ tail))) = .ok (set v d, tail) :=
  (readMember_eq_ok_iff hf).mpr
    ⟨hd, _, v, skipBlanks_cons (by decide) _, ht blanks tail hb htail, rfl⟩

/-- A written record is read back in any layout, as soon as its members are. -/
theorem shape_takes {shape : Shape σ} {m : String × Bytes} {ms : List (String × Bytes)} {d d' : σ}
    (h : ReadsAll (readMember shape.fields Stray.pass) (m :: ms) d d')
    (hm : firstMissing shape.fields d' = none) (spacing : Spacing) :
    Takes (shape.read d) (spacing.object m ms) d' := by
  intro blanks tail hb _
  have hshape : spacing.object m ms ++ tail = 0x7B :: (spacing.member m.1 m.2 ++
      (spacing.more ms ++ (spacing.close ++ 0x7D :: tail))) := by
    simp [Spacing.object]
  rw [hshape, Shape.read, skipBlanks_append hb, skipBlanks_cons (by decide)]
  refine inObject_eq_ok_iff.mpr ⟨0x7D :: tail, ?_, skipBlanks_cons (by decide) _⟩
  rw [recordMembers, bind_of_ok (members_object h spacing tail), hm]
  rfl

/-- A written document is read back, whatever blanks follow it. -/
theorem readDocument_of_takes {α : Type} {reader : Reader α} {text : Bytes} {v : α}
    (h : Takes reader text v) {blanks : Bytes} (hb : ∀ b ∈ blanks, isBlank b = true) :
    readDocument reader (text ++ blanks) = .ok v := by
  refine readDocument_eq_ok_iff.mpr ⟨blanks, ?_, ?_⟩
  · exact h [] blanks (by simp) (follows_blanks hb)
  · rw [← List.append_nil blanks, skipBlanks_append hb]
    rfl

end CniPlugin.Json
