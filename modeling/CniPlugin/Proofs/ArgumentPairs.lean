import CniPlugin.Invocation.ExtraArgs
import CniPlugin.Proofs.FirstFailure
/-!
# The pairs of the extra arguments

Pairs can be told from their text if no key is empty, no key holds an equality sign and nothing
holds a semicolon.  Lists of such pairs and the texts that are accepted are the same thing in two
forms: the pairs of a text, written one after the other, are the text again, and the pairs of the
text of such a list are the list, in order and with repetitions.  A text that is refused has an
entry without a key, and the first of them is named.

Results:
1. `pair?_eq_some_iff`, `pair?_eq_none_iff`: which entries are pairs.
2. `pairs_eq_ok_iff`, `pairs_eq_error_iff`: all entries, one after the other.
3. `parse_eq_ok_iff`, `parse_eq_error_iff`: the whole text.
4. `parse_iff_write`: what is accepted and what is refused.
-/

namespace CniPlugin.ExtraArgs

/-! ## Definitions -/

/-- The pair can be told from its text and from its neighbours. -/
structure Separable (pair : String × String) : Prop where
  key_ne_empty : pair.1 ≠ ""
  key_equals : '=' ∉ pair.1.toList
  key_semicolon : ';' ∉ pair.1.toList
  value_semicolon : ';' ∉ pair.2.toList

/-- The entry has no key: it has no equality sign, or begins with one. -/
def Keyless (entry : List Char) : Prop := '=' ∉ entry ∨ ∃ value, entry = '=' :: value

/-- Some entry of the text has no key. -/
def HasKeyless (raw : String) : Prop :=
  ∃ entries, Text.Divided ';' raw.toList entries ∧ ∃ entry ∈ entries, Keyless entry

/-- The entry has no key, and every entry of the text in front of it has one. -/
def FirstKeyless (raw entry : String) : Prop :=
  ∃ before after, Text.Divided ';' raw.toList (before ++ entry.toList :: after) ∧
    (∀ other ∈ before, ¬ Keyless other) ∧ Keyless entry.toList

/-! ## One entry -/

theorem pair?_eq_some_iff {entry : List Char} {pair : String × String} :
    pair? entry = some pair ↔ entry = pairChars pair ∧ pair.1 ≠ "" ∧ '=' ∉ pair.1.toList := by
  obtain ⟨key, value⟩ := pair
  constructor
  · intro h
    unfold pair? at h
    split at h
    · next k v hcut =>
      obtain ⟨rfl, hkey⟩ := Text.cut_eq_some_iff.mp hcut
      split at h
      · cases h
      · next hne =>
        cases h
        refine ⟨by simp [pairChars], ?_, by simpa using hkey⟩
        exact fun he => hne (by simpa using congrArg String.toList he)
    · cases h
  · rintro ⟨rfl, hne, hkey⟩
    have hchars : key.toList ≠ [] := fun he => hne (String.toList_eq_nil_iff.mp he)
    rw [pair?, pairChars, Text.cut_append_cons hkey]
    simp only [if_neg hchars, String.ofList_toList]

theorem pair?_eq_none_iff {entry : List Char} : pair? entry = none ↔ Keyless entry := by
  unfold pair?
  cases hcut : Text.cut '=' entry with
  | none =>
    have hnone := Text.cut_eq_none_iff.mp hcut
    simp [Keyless, hnone]
  | some found =>
    obtain ⟨key, value⟩ := found
    obtain ⟨rfl, hkey⟩ := Text.cut_eq_some_iff.mp hcut
    cases key with
    | nil => simp [Keyless]
    | cons c key =>
      have hc : c ≠ '=' := fun he => hkey (he ▸ List.mem_cons_self)
      simp [Keyless, hc]

theorem not_keyless_iff {entry : List Char} :
    ¬ Keyless entry ↔ ∃ pair, pair? entry = some pair := by
  rw [← pair?_eq_none_iff]
  exact Option.ne_none_iff_exists'

/-- Pairs that can be told apart are those whose texts are entries and are read as the pairs. -/
theorem separable_iff {pair : String × String} :
    Separable pair ↔ pair? (pairChars pair) = some pair ∧ ';' ∉ pairChars pair := by
  rw [pair?_eq_some_iff]
  constructor
  · intro h
    refine ⟨⟨rfl, h.key_ne_empty, h.key_equals⟩, ?_⟩
    simp [pairChars, h.key_semicolon, h.value_semicolon]
  · rintro ⟨⟨-, hne, hequals⟩, hsemicolon⟩
    simp only [pairChars, List.mem_append, List.mem_cons, not_or] at hsemicolon
    exact ⟨hne, hequals, hsemicolon.1, hsemicolon.2.2⟩

/-! ## All entries -/

theorem pairs_eq_mapM (entries : List (List Char)) :
    pairs entries = entries.mapM (orBlame pair? fun entry => ⟨String.ofList entry⟩) := by
  induction entries with
  | nil => rfl
  | cons entry entries ih =>
    rw [pairs, List.mapM_cons, ← ih, orBlame]
    cases pair? entry with
    | none => rfl
    | some pair => cases pairs entries <;> rfl

theorem pairs_eq_ok_iff {entries : List (List Char)} {ps : List (String × String)} :
    pairs entries = .ok ps ↔
      entries = ps.map pairChars ∧ ∀ pair ∈ ps, pair? (pairChars pair) = some pair := by
  rw [pairs_eq_mapM]
  induction entries generalizing ps with
  | nil => cases ps <;> simp [List.mapM_nil, pure, Except.pure]
  | cons entry entries ih =>
    rw [mapM_cons_eq_ok_iff]
    constructor
    · rintro ⟨pair, others, rfl, hpair, hothers⟩
      obtain ⟨rfl, hall⟩ := ih.mp hothers
      have hpair := orBlame_eq_ok_iff.mp hpair
      obtain ⟨rfl, -⟩ := pair?_eq_some_iff.mp hpair
      exact ⟨rfl, List.forall_mem_cons.mpr ⟨hpair, hall⟩⟩
    · rintro ⟨hentries, hall⟩
      cases ps with
      | nil => cases hentries
      | cons pair others =>
        cases hentries
        rw [List.forall_mem_cons] at hall
        exact ⟨pair, others, rfl, orBlame_eq_ok_iff.mpr hall.1, ih.mpr ⟨rfl, hall.2⟩⟩

/-- The first entry without a key is the failure. -/
theorem pairs_eq_error_iff {entries : List (List Char)} {e : InvalidPair} :
    pairs entries = .error e ↔ ∃ before after, entries = before ++ e.entry.toList :: after ∧
      (∀ other ∈ before, ¬ Keyless other) ∧ Keyless e.entry.toList := by
  simp only [pairs_eq_mapM, mapM_eq_error_iff, orBlame_eq_ok_iff, orBlame_eq_error_iff,
    ← not_keyless_iff, pair?_eq_none_iff]
  constructor
  · rintro ⟨before, entry, after, hentries, hbefore, hentry, rfl⟩
    rw [String.toList_ofList]
    exact ⟨before, after, hentries, hbefore, hentry⟩
  · rintro ⟨before, after, hentries, hbefore, hentry⟩
    exact ⟨before, e.entry.toList, after, hentries, hbefore, hentry, by rw [String.ofList_toList]⟩

/-! ## The whole text -/

/-- A text that is not empty is read by its entries. -/
theorem parse_of_divided {raw : String} {entries : List (List Char)} (hne : raw ≠ "")
    (hd : Text.Divided ';' raw.toList entries) : parse raw = pairs entries := by
  rw [parse, if_neg hne, Text.split_eq_iff.mpr hd]

/-- Even a pair of empty texts is written with an equality sign. -/
theorem write_cons_ne_empty (pair : String × String) (ps : List (String × String)) :
    write (pair :: ps) ≠ "" := by
  intro h
  have hchars := congrArg String.toList h
  cases ps <;> simp [write, Text.join, pairChars] at hchars

/-- Pairs that can be told apart are the entries of their text. -/
theorem divided_write {ps : List (String × String)} (hne : ps ≠ [])
    (hps : ∀ pair ∈ ps, Separable pair) :
    Text.Divided ';' (write ps).toList (ps.map pairChars) := by
  refine ⟨by simpa using hne, ?_, by rw [write, String.toList_ofList]⟩
  simp only [List.mem_map]
  rintro entry ⟨pair, hpair, rfl⟩
  exact (separable_iff.mp (hps pair hpair)).2

/-- The accepted texts are those of pairs that can be told apart. -/
theorem parse_eq_ok_iff {raw : String} {ps : List (String × String)} :
    parse raw = .ok ps ↔ (∀ pair ∈ ps, Separable pair) ∧ write ps = raw := by
  constructor
  · intro h
    by_cases hne : raw = ""
    · subst hne
      cases h
      exact ⟨List.forall_mem_nil _, rfl⟩
    · have hd := Text.divided_split ';' raw.toList
      rw [parse_of_divided hne hd] at h
      obtain ⟨hentries, hall⟩ := pairs_eq_ok_iff.mp h
      rw [hentries] at hd
      refine ⟨fun pair hpair => separable_iff.mpr ⟨hall pair hpair, ?_⟩, ?_⟩
      · exact hd.separated _ (List.mem_map_of_mem hpair)
      · rw [write, hd.joined, String.ofList_toList]
  · rintro ⟨hps, rfl⟩
    -- No pairs are written as the empty text, which is not read as one empty entry.
    cases ps with
    | nil => rfl
    | cons pair ps =>
      have hd := divided_write (List.cons_ne_nil pair ps) hps
      rw [parse_of_divided (write_cons_ne_empty pair ps) hd]
      exact pairs_eq_ok_iff.mpr ⟨rfl, fun p hp => (separable_iff.mp (hps p hp)).1⟩

theorem parse_eq_error_iff {raw : String} {e : InvalidPair} :
    parse raw = .error e ↔ raw ≠ "" ∧ FirstKeyless raw e.entry := by
  constructor
  · intro h
    have hne : raw ≠ "" := by
      rintro rfl
      cases h
    have hd := Text.divided_split ';' raw.toList
    rw [parse_of_divided hne hd] at h
    obtain ⟨before, after, hentries, hkeyed, hkeyless⟩ := pairs_eq_error_iff.mp h
    exact ⟨hne, before, after, hentries ▸ hd, hkeyed, hkeyless⟩
  · rintro ⟨hne, before, after, hd, hkeyed, hkeyless⟩
    rw [parse_of_divided hne hd]
    exact pairs_eq_error_iff.mpr ⟨before, after, rfl, hkeyed, hkeyless⟩

/-- One entry without a key is enough. -/
theorem not_accepted_of_hasKeyless {raw : String} (hne : raw ≠ "") (h : HasKeyless raw)
    (ps : List (String × String)) : parse raw ≠ .ok ps := by
  obtain ⟨entries, hd, entry, hmem, hkeyless⟩ := h
  intro hok
  rw [parse_of_divided hne hd] at hok
  obtain ⟨rfl, hall⟩ := pairs_eq_ok_iff.mp hok
  obtain ⟨pair, hpair, rfl⟩ := List.mem_map.mp hmem
  exact not_keyless_iff.mpr ⟨pair, hall pair hpair⟩ hkeyless

theorem hasKeyless_of_first {raw entry : String} (h : FirstKeyless raw entry) :
    HasKeyless raw := by
  obtain ⟨before, after, hd, -, hkeyless⟩ := h
  exact ⟨_, hd, entry.toList, by simp, hkeyless⟩

/-- Reading undoes writing on exactly the lists whose pairs can be told apart, and writing undoes
reading on every text that is accepted.  Refused are the texts other than the empty one that have an
entry without a key; the first of these is the failure. -/
theorem parse_iff_write (raw : String) :
    (∀ ps, parse raw = .ok ps ↔ (∀ pair ∈ ps, Separable pair) ∧ write ps = raw) ∧
      ((∃ e, parse raw = .error e) ↔ raw ≠ "" ∧ HasKeyless raw) ∧
      ∀ e, parse raw = .error e ↔ raw ≠ "" ∧ FirstKeyless raw e.entry := by
  refine ⟨fun ps => parse_eq_ok_iff, ⟨?_, ?_⟩, fun e => parse_eq_error_iff⟩
  · rintro ⟨e, h⟩
    obtain ⟨hne, hfirst⟩ := parse_eq_error_iff.mp h
    exact ⟨hne, hasKeyless_of_first hfirst⟩
  · rintro ⟨hne, hkeyless⟩
    cases h : parse raw with
    | ok ps => exact absurd h (not_accepted_of_hasKeyless hne hkeyless ps)
    | error e => exact ⟨e, rfl⟩

-- Values may be empty or hold an equality sign, keys may be repeated; no separator is passed over.
example : parse "A=;B=1=2;A=" = .ok [("A", ""), ("B", "1=2"), ("A", "")] := by rfl
example : parse "A=1;;=2" = .error ⟨""⟩ := by rfl

end CniPlugin.ExtraArgs
