/-!
# The first failure

The parts of a version and the entries of an argument list are read one after the other, and the
first that cannot be read ends it.  So the whole list is read exactly if every item is, and a
failure is that of an item with nothing but readable items in front of it.

Results: `mapM_cons_eq_ok_iff` and `mapM_eq_error_iff`.
-/

namespace CniPlugin

variable {α β ε : Type}

/-! ## One item -/

/-- Reads an item; one that cannot be read is to blame. -/
def orBlame (read : α → Option β) (blame : α → ε) (item : α) : Except ε β :=
  match read item with
  | some value => .ok value
  | none => .error (blame item)

theorem orBlame_eq_ok_iff {read : α → Option β} {blame : α → ε} {item : α} {value : β} :
    orBlame read blame item = .ok value ↔ read item = some value := by
  rw [orBlame]
  cases read item <;> simp

theorem orBlame_eq_error_iff {read : α → Option β} {blame : α → ε} {item : α} {e : ε} :
    orBlame read blame item = .error e ↔ read item = none ∧ blame item = e := by
  rw [orBlame]
  cases read item <;> simp

/-! ## All items -/

variable {read : α → Except ε β}

theorem mapM_cons_of_ok {item : α} {value : β} (h : read item = .ok value) (items : List α) :
    (item :: items).mapM read = (items.mapM read).map (value :: ·) := by
  rw [List.mapM_cons, h]
  cases items.mapM read <;> rfl

theorem mapM_cons_of_error {item : α} {e : ε} (h : read item = .error e) (items : List α) :
    (item :: items).mapM read = .error e := by
  rw [List.mapM_cons, h]
  rfl

/-- All items are read exactly if the first is and the others are. -/
theorem mapM_cons_eq_ok_iff {item : α} {items : List α} {values : List β} :
    (item :: items).mapM read = .ok values ↔ ∃ value others, values = value :: others ∧
      read item = .ok value ∧ items.mapM read = .ok others := by
  cases hitem : read item with
  | error e =>
    rw [mapM_cons_of_error hitem]
    simp
  | ok value =>
    rw [mapM_cons_of_ok hitem]
    cases items.mapM read <;> simp [Except.map, eq_comm]

/-- The failure is that of an item in front of which every item is read. -/
theorem mapM_eq_error_iff {items : List α} {e : ε} :
    items.mapM read = .error e ↔ ∃ before item after, items = before ++ item :: after ∧
      (∀ other ∈ before, ∃ value, read other = .ok value) ∧ read item = .error e := by
  constructor
  · intro h
    induction items with
    | nil => cases h
    | cons item items ih =>
      cases hitem : read item with
      | error e' =>
        rw [mapM_cons_of_error hitem] at h
        cases h
        exact ⟨[], item, items, rfl, List.forall_mem_nil _, hitem⟩
      | ok value =>
        rw [mapM_cons_of_ok hitem] at h
        have hrest : items.mapM read = .error e := by
          cases hr : items.mapM read with
          | error e' => rw [hr] at h; exact h
          | ok values => rw [hr] at h; cases h
        obtain ⟨before, bad, after, rfl, hbefore, hbad⟩ := ih hrest
        exact ⟨item :: before, bad, after, rfl,
          List.forall_mem_cons.mpr ⟨⟨value, hitem⟩, hbefore⟩, hbad⟩
  · rintro ⟨before, item, after, rfl, hbefore, hitem⟩
    induction before with
    | nil => exact mapM_cons_of_error hitem after
    | cons other before ih =>
      rw [List.forall_mem_cons] at hbefore
      obtain ⟨⟨value, hvalue⟩, hbefore⟩ := hbefore
      rw [List.cons_append, mapM_cons_of_ok hvalue, ih hbefore]
      rfl

end CniPlugin
