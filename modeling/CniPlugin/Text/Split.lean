/-!
# Splitting at a separator

Version numbers, argument lists, search paths and option values are all texts whose parts are
divided by one character; words of the command line and the environment are bytes that are divided
by one byte.

Results:
1. `split_ne_nil`, `join_split`, `not_mem_of_mem_split`: there is always a first piece, nothing is
   lost, and no piece holds the separator.
2. `split_append_cons`: a piece in front of a separator is split off.
3. `split_eq_iff`: there is no other way to divide a text.
4. `cut_eq_some_iff`, `cut_eq_none_iff`: where a text is cut.
-/

namespace CniPlugin.Text

variable {α : Type} [DecidableEq α]

/-- The pieces between separators: one more than there are separators. -/
def split (sep : α) : List α → List (List α)
  | [] => [[]]
  | c :: rest =>
    if c = sep then [] :: split sep rest
    else
      match split sep rest with
      | [] => [[c]]
      | piece :: pieces => (c :: piece) :: pieces

/-- The pieces one after the other, a separator between neighbours. -/
def join {α : Type} (sep : α) : List (List α) → List α
  | [] => []
  | [piece] => piece
  | piece :: pieces => piece ++ sep :: join sep pieces

/-- What stands before the first separator and what stands after it. -/
def cut (sep : α) : List α → Option (List α × List α)
  | [] => none
  | c :: rest =>
    if c = sep then some ([], rest)
    else (cut sep rest).map fun (before, after) => (c :: before, after)

/-- The pieces of a string. -/
def splitString (sep : Char) (s : String) : List String :=
  (split sep s.toList).map String.ofList

theorem split_ne_nil (sep : α) (cs : List α) : split sep cs ≠ [] := by
  cases cs with
  | nil => simp [split]
  | cons c rest =>
    simp only [split]
    split
    · simp
    · split <;> simp

theorem join_cons_cons {α : Type} (sep c : α) (piece : List α) (pieces : List (List α)) :
    join sep ((c :: piece) :: pieces) = c :: join sep (piece :: pieces) := by
  cases pieces <;> rfl

/-- Splitting loses nothing. -/
theorem join_split (sep : α) (cs : List α) : join sep (split sep cs) = cs := by
  induction cs with
  | nil => rfl
  | cons c rest ih =>
    simp only [split]
    split
    · next h =>
      subst h
      cases hs : split c rest with
      | nil => exact absurd hs (split_ne_nil c rest)
      | cons piece pieces => simp [join, ← hs, ih]
    · cases hs : split sep rest with
      | nil => exact absurd hs (split_ne_nil sep rest)
      | cons piece pieces => simp [join_cons_cons, ← hs, ih]

/-- No piece holds the separator. -/
theorem not_mem_of_mem_split {sep : α} {cs piece : List α} (h : piece ∈ split sep cs) :
    sep ∉ piece := by
  induction cs generalizing piece with
  | nil => simp [split] at h; simp [h]
  | cons c rest ih =>
    simp only [split] at h
    split at h
    · rcases List.mem_cons.mp h with rfl | h
      · simp
      · exact ih h
    · next hc =>
      cases hs : split sep rest with
      | nil => exact absurd hs (split_ne_nil sep rest)
      | cons first others =>
        rw [hs] at h ih
        rcases List.mem_cons.mp h with rfl | h
        · simpa [Ne.symm hc] using ih List.mem_cons_self
        · exact ih (List.mem_cons_of_mem _ h)

/-- A piece in front of a separator is split off. -/
theorem split_append_cons {sep : α} {piece : List α} (h : sep ∉ piece) (rest : List α) :
    split sep (piece ++ sep :: rest) = piece :: split sep rest := by
  induction piece with
  | nil => simp [split]
  | cons c piece ih =>
    rw [List.mem_cons, not_or] at h
    rw [List.cons_append, split, if_neg (Ne.symm h.1), ih h.2]

theorem split_of_not_mem {sep : α} {piece : List α} (h : sep ∉ piece) :
    split sep piece = [piece] := by
  induction piece with
  | nil => rfl
  | cons c piece ih =>
    rw [List.mem_cons, not_or] at h
    rw [split, if_neg (Ne.symm h.1), ih h.2]

/-- A text divided at a separator: there is a piece, no piece holds the separator, and the pieces
with separators between them are the text. -/
structure Divided {α : Type} (sep : α) (cs : List α) (pieces : List (List α)) : Prop where
  ne_nil : pieces ≠ []
  separated : ∀ piece ∈ pieces, sep ∉ piece
  joined : join sep pieces = cs

theorem divided_split (sep : α) (cs : List α) : Divided sep cs (split sep cs) :=
  ⟨split_ne_nil sep cs, fun _ hp => not_mem_of_mem_split hp, join_split sep cs⟩

/-- Splitting undoes joining. -/
theorem split_join {sep : α} {pieces : List (List α)} (hne : pieces ≠ [])
    (hsep : ∀ piece ∈ pieces, sep ∉ piece) : split sep (join sep pieces) = pieces := by
  induction pieces with
  | nil => exact absurd rfl hne
  | cons piece pieces ih =>
    have hpiece : sep ∉ piece := hsep piece List.mem_cons_self
    cases pieces with
    | nil => exact split_of_not_mem hpiece
    | cons next pieces =>
      rw [join, split_append_cons hpiece,
        ih (List.cons_ne_nil next pieces) fun p hp => hsep p (List.mem_cons_of_mem piece hp)]
      exact fun h => nomatch h

/-- A text can be divided at a separator in one way only. -/
theorem split_eq_iff {sep : α} {cs : List α} {pieces : List (List α)} :
    split sep cs = pieces ↔ Divided sep cs pieces := by
  constructor
  · rintro rfl
    exact divided_split sep cs
  · rintro ⟨hne, hsep, rfl⟩
    exact split_join hne hsep

/-- A cut takes out one separator, the first. -/
theorem eq_of_cut {sep : α} {cs before after : List α}
    (h : cut sep cs = some (before, after)) : cs = before ++ sep :: after ∧ sep ∉ before := by
  induction cs generalizing before with
  | nil => simp [cut] at h
  | cons c rest ih =>
    simp only [cut] at h
    split at h
    · next hc => simp at h; simp [h.1, h.2, hc]
    · next hc =>
      obtain ⟨⟨b, a⟩, hb, he⟩ := Option.map_eq_some_iff.mp h
      simp at he
      obtain ⟨rfl, rfl⟩ := he
      obtain ⟨hr, hm⟩ := ih hb
      exact ⟨by simp [hr], by simp [hm, Ne.symm hc]⟩

theorem cut_append_cons {sep : α} {before : List α} (h : sep ∉ before) (after : List α) :
    cut sep (before ++ sep :: after) = some (before, after) := by
  induction before with
  | nil => simp [cut]
  | cons c before ih =>
    rw [List.mem_cons, not_or] at h
    rw [List.cons_append, cut, if_neg (Ne.symm h.1), ih h.2]
    rfl

theorem cut_eq_some_iff {sep : α} {cs before after : List α} :
    cut sep cs = some (before, after) ↔ cs = before ++ sep :: after ∧ sep ∉ before := by
  refine ⟨eq_of_cut, ?_⟩
  rintro ⟨rfl, h⟩
  exact cut_append_cons h after

theorem cut_eq_none_iff {sep : α} {cs : List α} : cut sep cs = none ↔ sep ∉ cs := by
  induction cs with
  | nil => simp [cut]
  | cons c rest ih =>
    simp only [cut]
    split
    · next hc => simp [hc]
    · next hc => simp [ih, Ne.symm hc]

example : split ',' "a,,b".toList = ["a".toList, [], "b".toList] := by decide
example : split ',' [] = [[]] := by decide
example : cut '=' "k=v=w".toList = some ("k".toList, "v=w".toList) := by decide

end CniPlugin.Text
