import CniPlugin.Proofs.LogEntries
/-!
# A compact value is written on one line

No number is written with a line feed, and in a string every line feed is escaped.  So the compact
layout of a value, which has no blanks of its own, is a line without its end, whatever the value is.

Results:
1. `Json.Number.numberChar_text`: the characters that a number is written with.
2. `Json.lineFeed_not_mem_compact`: no compact value holds a line feed.
-/

namespace CniPlugin

/-! ## Numbers -/

/-- The characters that numbers are written with. -/
def NumberChar (c : Char) : Prop := c.isDigit = true ∨ c ∈ ['-', '.', '+', 'e']

theorem numberChar_toDigits (n : Nat) : ∀ c ∈ Nat.toDigits 10 n, NumberChar c :=
  fun _ hc => .inl (Nat.isDigit_of_mem_toDigits (by decide) (by decide) hc)

theorem Decimal.numberChar_text (layout : Layout) (d : Decimal) :
    ∀ c ∈ d.text layout, NumberChar c := by
  have hdigits := numberChar_toDigits d.digits
  have hzeros (n : Nat) : ∀ c ∈ List.replicate n '0', NumberChar c := by
    intro c hc
    rw [List.eq_of_mem_replicate hc]
    exact .inl rfl
  have hpoint : NumberChar '.' := .inr (by decide)
  have hzero : NumberChar '0' := .inl rfl
  unfold text
  dsimp only
  generalize Nat.toDigits 10 d.digits = digits at hdigits ⊢
  split
  · split
    · simp only [List.forall_mem_append, List.forall_mem_cons]
      exact ⟨⟨⟨hzero, hpoint, List.forall_mem_nil _⟩, hzeros _⟩, hdigits⟩
    · split
      · simp only [List.forall_mem_append, List.forall_mem_cons]
        exact ⟨⟨hdigits, hzeros _⟩, hpoint, hzero, List.forall_mem_nil _⟩
      · simp only [List.forall_mem_append, List.forall_mem_cons]
        exact ⟨fun c hc => hdigits c (List.mem_of_mem_take hc), hpoint,
          fun c hc => hdigits c (List.mem_of_mem_drop hc)⟩
  · simp only [List.forall_mem_append, List.forall_mem_cons]
    refine ⟨?_, .inr (by decide), ?_, numberChar_toDigits _⟩
    · split
      · simp only [List.forall_mem_cons] at hdigits ⊢
        exact ⟨hdigits.1, hpoint, hdigits.2⟩
      · exact hdigits
    · split
      · exact .inr (by decide)
      · exact .inr (by decide)

theorem Json.Number.numberChar_text (n : Number) : ∀ c ∈ n.text, NumberChar c := by
  have hsign : NumberChar '-' := .inr (by decide)
  cases n with
  | integer i _ =>
    rw [text]
    split
    · exact List.forall_mem_cons.mpr ⟨hsign, numberChar_toDigits _⟩
    · exact numberChar_toDigits _
  | float x =>
    rw [text, floatText, List.forall_mem_append]
    constructor
    · split
      · exact List.forall_mem_cons.mpr ⟨hsign, List.forall_mem_nil _⟩
      · exact List.forall_mem_nil _
    · split
      · intro c hc
        simp only [List.mem_cons, List.not_mem_nil, or_false] at hc
        rcases hc with rfl | rfl | rfl
        · exact .inl rfl
        · exact .inr (by decide)
        · exact .inl rfl
      · exact Decimal.numberChar_text numberLayout _

theorem Json.standsForItself_of_numberChar {c : Char} (h : NumberChar c) {b : UInt8}
    (hb : b ∈ String.utf8EncodeChar c) : StandsForItself b := by
  rcases h with h | h
  · have hrange : 48 ≤ c.toNat ∧ c.toNat ≤ 57 := by
      simpa [Char.isDigit, UInt32.le_iff_toNat_le] using h
    refine standsForItself_of_mem ?_ ?_ ?_ hb
    · rintro rfl
      exact absurd hrange (by decide)
    · rintro rfl
      exact absurd hrange (by decide)
    · omega
  · simp only [List.mem_cons, List.not_mem_nil, or_false] at h
    rcases h with rfl | rfl | rfl | rfl <;>
      exact standsForItself_of_mem (by decide) (by decide) (by decide) hb

theorem Json.lineFeed_not_mem_number (n : Number) : 0x0A ∉ Text.Utf8.encode n.text := by
  intro hm
  obtain ⟨c, hc, hb⟩ := List.mem_flatMap.mp hm
  exact (standsForItself_of_numberChar (n.numberChar_text c hc) hb).2.2 (by decide)

/-! ## Values -/

namespace Json

theorem lineFeed_not_mem_items {items : List Json} (h : ∀ item ∈ items, 0x0A ∉ item.compact) :
    0x0A ∉ compactItems items := by
  induction items with
  | nil => exact List.not_mem_nil
  | cons item items ih =>
    have hfirst := h item List.mem_cons_self
    cases items with
    | nil => exact hfirst
    | cons next items =>
      have hrest := ih fun item hm => h item (List.mem_cons_of_mem _ hm)
      simp [compactItems, hfirst, hrest]

/-- A compact value holds no line feed. -/
theorem lineFeed_not_mem_compact (v : Json) : 0x0A ∉ v.compact := by
  match v with
  | .null => decide
  | .bool true => decide
  | .bool false => decide
  | .number n => exact lineFeed_not_mem_number n
  | .text s => exact lineFeed_not_mem_quote s
  | .list items =>
    have hitems : 0x0A ∉ compactItems items :=
      lineFeed_not_mem_items fun item hm => lineFeed_not_mem_compact item
    simp [compact, hitems]
  | .object members =>
    exact lineFeed_not_mem_object fun m hm => lineFeed_not_mem_compact m.2
termination_by sizeOf v
decreasing_by
  · have hsize := List.sizeOf_lt_of_mem hm
    simp only [Json.list.sizeOf_spec]
    omega
  · have hsize := List.sizeOf_lt_of_mem hm
    obtain ⟨key, value⟩ := m
    simp only [Json.object.sizeOf_spec, Prod.mk.sizeOf_spec] at hsize ⊢
    omega

end Json
end CniPlugin
