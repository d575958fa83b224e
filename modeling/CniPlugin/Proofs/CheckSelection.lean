import CniPlugin.Proofs.ServedVersions
/-!
# Which version serves CHECK

The list is read from the front.  Entries older than the declared version are passed by; the first
one that is not older, or is no version at all, decides, and the entries behind it are not looked
at.  The rule for CHECK compares the declared version with the oldest one that has CHECK before
that.  The search alone reads the declared version only when it has an entry to compare it with, so
on a declared version that is none its answer depends on the first entry.

Results:
1. `firstNotOlder_of_decides`: where the search ends.
2. `select_eq_iff`, `selectForCheck_eq_iff`: what the search and the rule answer.
3. `select_eq_of_decides`: lists with one deciding entry have the same answer.
4. `selection_spec`: all of it.
-/

namespace CniPlugin.Support

/-! ## Definitions -/

/-- The entry is the first that is not passed by. -/
structure Decides (versions : List String) (v : Version) (entry : String) : Prop where
  first : ∃ before after, versions = before ++ entry :: after ∧ ∀ other ∈ before, OlderThan v other
  not_older : ¬ OlderThan v entry

/-- What the search answers for a declared version that has been read as `v`. -/
inductive Answers (support : Support) (declared : String) (v : Version) :
    Except Fault String → Prop
  /-- The deciding entry is a version. -/
  | chosen {entry : String} {w : Version} : Decides support.versions v entry →
      Version.parse entry = .ok w → v ≤ w → Answers support declared v (.ok entry)
  /-- The deciding entry is no version. -/
  | malformedEntry {entry : String} {e : Version.Malformed} : Decides support.versions v entry →
      Version.parse entry = .error e →
      Answers support declared v (.error ⟨.decoding, e.message, ""⟩)
  /-- No entry decides. -/
  | outdated : (∀ entry ∈ support.versions, OlderThan v entry) →
      Answers support declared v (.error ⟨.incompatibleVersion,
        "plugin version does not allow CHECK", support.incompatibleDetails declared⟩)

/-- What the search answers. -/
inductive Selects (support : Support) (declared : String) : Except Fault String → Prop
  | read {v : Version} {result : Except Fault String} : Version.parse declared = .ok v →
      Answers support declared v result → Selects support declared result
  /-- The declared version is none, and there is nothing to compare it with. -/
  | unlisted {e : Version.Malformed} : Version.parse declared = .error e →
      support.versions = [] → Selects support declared (.error ⟨.incompatibleVersion,
        "plugin version does not allow CHECK", support.incompatibleDetails declared⟩)
  /-- Neither the declared version nor the first entry is one: the entry is read first. -/
  | malformedFirst {e bad : Version.Malformed} {entry : String} {entries : List String} :
      Version.parse declared = .error e → support.versions = entry :: entries →
      Version.parse entry = .error bad →
      Selects support declared (.error ⟨.decoding, bad.message, ""⟩)
  /-- The declared version is none, and the first entry is one. -/
  | malformed {e : Version.Malformed} {entry : String} {entries : List String} {w : Version} :
      Version.parse declared = .error e → support.versions = entry :: entries →
      Version.parse entry = .ok w → Selects support declared (.error ⟨.decoding, e.message, ""⟩)

/-- What the rule for CHECK answers. -/
inductive SelectsForCheck (support : Support) (declared : String) : Except Fault String → Prop
  | malformed {e : Version.Malformed} : Version.parse declared = .error e →
      SelectsForCheck support declared (.error ⟨.decoding, e.message, ""⟩)
  /-- The declared version is older than CHECK, whatever is listed. -/
  | tooOld {v : Version} : Version.parse declared = .ok v → ¬ (⟨0, 4, 0⟩ : Version) ≤ v →
      SelectsForCheck support declared (.error ⟨.incompatibleVersion,
        "config version does not allow CHECK",
        "config is " ++ Text.quoted declared ++ ", CHECK requires at least " ++
          Text.quoted Version.checkFloor⟩)
  | read {v : Version} {result : Except Fault String} : Version.parse declared = .ok v →
      (⟨0, 4, 0⟩ : Version) ≤ v → Answers support declared v result →
      SelectsForCheck support declared result

/-! ## The deciding entry -/

theorem Decides.of_malformed {versions before after : List String} {v : Version} {entry : String}
    {e : Version.Malformed} (hv : versions = before ++ entry :: after)
    (hb : ∀ other ∈ before, OlderThan v other) (he : Version.parse entry = .error e) :
    Decides versions v entry := by
  refine ⟨⟨before, after, hv, hb⟩, ?_⟩
  rintro ⟨w, hw, -⟩
  rw [he] at hw
  cases hw

theorem Decides.of_le {versions before after : List String} {v w : Version} {entry : String}
    (hv : versions = before ++ entry :: after) (hb : ∀ other ∈ before, OlderThan v other)
    (he : Version.parse entry = .ok w) (hle : v ≤ w) : Decides versions v entry := by
  refine ⟨⟨before, after, hv, hb⟩, ?_⟩
  rintro ⟨u, hu, hlt⟩
  rw [he] at hu
  cases hu
  exact hlt hle

/-- An entry that is not older is no version, or a version at least as new. -/
theorem malformed_or_le_of_not_older {v : Version} {entry : String} (h : ¬ OlderThan v entry) :
    (∃ e, Version.parse entry = .error e) ∨ ∃ w, Version.parse entry = .ok w ∧ v ≤ w := by
  cases he : Version.parse entry with
  | error e => exact .inl ⟨e, rfl⟩
  | ok w =>
    by_cases hle : v ≤ w
    · exact .inr ⟨w, rfl, hle⟩
    · exact absurd ⟨w, he, hle⟩ h

/-! ## The search -/

variable {support : Support} {declared : String} {v : Version}

/-- The search ends at the deciding entry. -/
theorem firstNotOlder_of_decides (hd : Version.parse declared = .ok v) {versions : List String}
    {entry : String} (h : Decides versions v entry) :
    firstNotOlder declared versions =
      match Version.parse entry with
      | .error e => .error e
      | .ok _ => .ok (some entry) := by
  obtain ⟨⟨before, after, rfl, hb⟩, hn⟩ := h
  rw [firstNotOlder_append hd hb, firstNotOlder]
  rcases malformed_or_le_of_not_older hn with ⟨e, he⟩ | ⟨w, hw, hle⟩
  · simp only [Version.atLeast_of_error he, he]
  · simp only [Version.atLeast_of_ok hw hd, Version.notOlder_iff.mpr hle, hw]

theorem select_of_answers (hd : Version.parse declared = .ok v) {result : Except Fault String}
    (h : Answers support declared v result) : support.select declared = result := by
  cases h with
  | chosen hdecides he hle => simp only [select, firstNotOlder_of_decides hd hdecides, he]
  | malformedEntry hdecides he =>
    simp only [select, firstNotOlder_of_decides hd hdecides, he]
    rfl
  | outdated ho => simp only [select, firstNotOlder_of_all_older hd ho]

theorem answers_select (hd : Version.parse declared = .ok v) :
    Answers support declared v (support.select declared) := by
  have hf := firstNotOlder_finds hd support.versions
  rw [select]
  cases hs : firstNotOlder declared support.versions with
  | error e =>
    rw [hs] at hf
    obtain ⟨before, entry, after, hl, hb, hp⟩ := hf
    exact .malformedEntry (.of_malformed hl hb hp) hp
  | ok selected =>
    rw [hs] at hf
    cases selected with
    | none => exact .outdated hf
    | some entry =>
      obtain ⟨before, after, w, hl, hb, hp, hw⟩ := hf
      exact .chosen (.of_le hl hb hp hw) hp hw

theorem select_of_selects {result : Except Fault String} (h : Selects support declared result) :
    support.select declared = result := by
  cases h with
  | read hd ha => exact select_of_answers hd ha
  | unlisted hd hl => simp only [select, hl, firstNotOlder]
  | malformedFirst hd hl he =>
    simp only [select, hl, firstNotOlder, Version.atLeast_of_error he]
    rfl
  | malformed hd hl he =>
    simp only [select, hl, firstNotOlder, Version.atLeast, he, hd]
    rfl

theorem selects_select (support : Support) (declared : String) :
    Selects support declared (support.select declared) := by
  cases hd : Version.parse declared with
  | ok v => exact .read hd (answers_select hd)
  | error e =>
    -- The first entry ends the search, and is read before the declared version.
    cases hl : support.versions with
    | nil =>
      have h := Selects.unlisted hd hl
      rwa [← select_of_selects h] at h
    | cons entry entries =>
      cases he : Version.parse entry with
      | error bad =>
        have h := Selects.malformedFirst hd hl he
        rwa [← select_of_selects h] at h
      | ok w =>
        have h := Selects.malformed hd hl he
        rwa [← select_of_selects h] at h

theorem select_eq_iff {result : Except Fault String} :
    support.select declared = result ↔ Selects support declared result := by
  refine ⟨?_, select_of_selects⟩
  rintro rfl
  exact selects_select support declared

/-- Of the list only the deciding entry matters. -/
theorem select_eq_of_decides (hd : Version.parse declared = .ok v) {other : Support}
    {entry : String} (h : Decides support.versions v entry)
    (ho : Decides other.versions v entry) : support.select declared = other.select declared := by
  rcases malformed_or_le_of_not_older h.not_older with ⟨e, he⟩ | ⟨w, hw, hle⟩
  · rw [select_of_answers hd (.malformedEntry h he), select_of_answers hd (.malformedEntry ho he)]
  · rw [select_of_answers hd (.chosen h hw hle), select_of_answers hd (.chosen ho hw hle)]

/-! ## The rule -/

theorem selectForCheck_of_selects {result : Except Fault String}
    (h : SelectsForCheck support declared result) : support.selectForCheck declared = result := by
  cases h with
  | malformed hd =>
    rw [selectForCheck_of_error hd]
    rfl
  | tooOld hd hv => exact selectForCheck_of_not_le hd hv
  | read hd hv ha => rw [selectForCheck_of_le hd hv, select_of_answers hd ha]

theorem selects_selectForCheck (support : Support) (declared : String) :
    SelectsForCheck support declared (support.selectForCheck declared) := by
  cases hd : Version.parse declared with
  | error e =>
    rw [selectForCheck_of_error hd]
    exact .malformed hd
  | ok v =>
    by_cases hv : (⟨0, 4, 0⟩ : Version) ≤ v
    · rw [selectForCheck_of_le hd hv]
      exact .read hd hv (answers_select hd)
    · rw [selectForCheck_of_not_le hd hv]
      exact .tooOld hd hv

theorem selectForCheck_eq_iff {result : Except Fault String} :
    support.selectForCheck declared = result ↔ SelectsForCheck support declared result := by
  refine ⟨?_, selectForCheck_of_selects⟩
  rintro rfl
  exact selects_selectForCheck support declared

theorem selectForCheck_eq_of_decides (hd : Version.parse declared = .ok v) {other : Support}
    {entry : String} (h : Decides support.versions v entry)
    (ho : Decides other.versions v entry) :
    support.selectForCheck declared = other.selectForCheck declared := by
  by_cases hv : (⟨0, 4, 0⟩ : Version) ≤ v
  · rw [selectForCheck_of_le hd hv, selectForCheck_of_le hd hv, select_eq_of_decides hd h ho]
  · rw [selectForCheck_of_not_le hd hv, selectForCheck_of_not_le hd hv]

/-- The rule and the search answer what the relations say, and neither depends on the entries behind
the deciding one. -/
theorem selection_spec (support : Support) (declared : String) :
    (∀ result, support.selectForCheck declared = result ↔
        SelectsForCheck support declared result) ∧
      (∀ result, support.select declared = result ↔ Selects support declared result) ∧
      ∀ (v : Version) (before after after' : List String) (entry : String),
        Version.parse declared = .ok v → (∀ other ∈ before, OlderThan v other) →
        ¬ OlderThan v entry →
        (⟨before ++ entry :: after⟩ : Support).selectForCheck declared =
            (⟨before ++ entry :: after'⟩ : Support).selectForCheck declared ∧
          (⟨before ++ entry :: after⟩ : Support).select declared =
            (⟨before ++ entry :: after'⟩ : Support).select declared := by
  refine ⟨fun result => selectForCheck_eq_iff, fun result => select_eq_iff, ?_⟩
  intro v before after after' entry hd hb hn
  have h : Decides (before ++ entry :: after) v entry := ⟨⟨before, after, rfl, hb⟩, hn⟩
  have h' : Decides (before ++ entry :: after') v entry := ⟨⟨before, after', rfl, hb⟩, hn⟩
  exact ⟨selectForCheck_eq_of_decides hd h h', select_eq_of_decides hd h h'⟩

/-- Version 1.0.0 is chosen for 0.4, with an older entry in front of it, and whether or not there is
an entry behind it that is no version. -/
theorem selection_past_older_entry :
    Version.parse "0.4" = .ok ⟨0, 4, 0⟩ ∧ (∀ other ∈ ["0.3.1"], OlderThan ⟨0, 4, 0⟩ other) ∧
      ¬ OlderThan ⟨0, 4, 0⟩ "1.0.0" ∧
      SelectsForCheck ⟨["0.3.1", "1.0.0", "x"]⟩ "0.4" (.ok "1.0.0") ∧
      (⟨["0.3.1"] ++ "1.0.0" :: ["x"]⟩ : Support).selectForCheck "0.4" =
        (⟨["0.3.1"] ++ "1.0.0" :: []⟩ : Support).selectForCheck "0.4" := by
  have hd : Version.parse "0.4" = .ok ⟨0, 4, 0⟩ := by rfl
  have hold : OlderThan ⟨0, 4, 0⟩ "0.3.1" :=
    ⟨⟨0, 3, 1⟩, by rfl, by rw [Version.le_iff]; decide⟩
  have hnew : ¬ OlderThan ⟨0, 4, 0⟩ "1.0.0" := by
    rintro ⟨w, hw, hlt⟩
    cases hw
    exact hlt (by rw [Version.le_iff]; decide)
  have hspec := selection_spec ⟨["0.3.1", "1.0.0", "x"]⟩ "0.4"
  have hbefore : ∀ other ∈ ["0.3.1"], OlderThan ⟨0, 4, 0⟩ other := by simpa using hold
  exact ⟨hd, hbefore, hnew, (hspec.1 _).mp (by rfl),
    (hspec.2.2 _ ["0.3.1"] ["x"] [] "1.0.0" hd hbefore hnew).1⟩

end CniPlugin.Support
