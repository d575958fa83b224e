import CniPlugin.Session
/-!
# Which declared versions are served

ADD and DEL ask for an entry of the list of supported versions, to the letter.  CHECK goes by
numbers: it asks for a declared version that is not older than CHECK itself, and for an entry that
is not older than the declared version; the entries in front of that one have to be versions too.

Results:
1. `notOlder_iff`: versions are compared lexicographically, major numbers first.
2. `serve_eq_ok_iff`: the declared versions that an operation serves.
3. `serve_eq_error_iff`: the others, each with the only reason that applies to it.
-/

namespace CniPlugin

/-! ## Order of versions -/

namespace Version

/-- Lexicographically, major numbers first and patch numbers last. -/
instance : LE Version where
  le v w := v.major < w.major ∨ v.major = w.major ∧
    (v.minor < w.minor ∨ v.minor = w.minor ∧ v.patch ≤ w.patch)

theorem le_iff {v w : Version} : v ≤ w ↔ v.major < w.major ∨ v.major = w.major ∧
    (v.minor < w.minor ∨ v.minor = w.minor ∧ v.patch ≤ w.patch) := Iff.rfl

theorem notOlder_iff {v w : Version} : v.notOlder w = true ↔ w ≤ v := by
  rw [notOlder, bne_iff_ne, ne_eq, compare, Ordering.then_eq_lt, Ordering.then_eq_lt,
    Std.compare_eq_lt, Std.compare_eq_lt, Std.compare_eq_lt, Std.compare_eq_iff_eq,
    Std.compare_eq_iff_eq, le_iff]
  simp only [UInt64.lt_iff_toNat_lt, UInt64.le_iff_toNat_le, ← UInt64.toNat_inj]
  omega

theorem atLeast_of_ok {a b : String} {v w : Version} (ha : parse a = .ok v)
    (hb : parse b = .ok w) : atLeast a b = .ok (v.notOlder w) := by
  simp [atLeast, ha, hb]

theorem atLeast_of_error {a : String} {e : Malformed} (ha : parse a = .error e) (b : String) :
    atLeast a b = .error e := by
  simp [atLeast, ha]

theorem parse_checkFloor : parse checkFloor = .ok ⟨0, 4, 0⟩ := by rfl

end Version

namespace Support

/-! ## Definitions -/

/-- The entry is a version older than `v`. -/
def OlderThan (v : Version) (entry : String) : Prop :=
  ∃ w, Version.parse entry = .ok w ∧ ¬ v ≤ w

/-- Some entry of the list is a version not older than `v`, and every entry in front of it is a
version. -/
def HasNotOlder (versions : List String) (v : Version) : Prop :=
  ∃ before entry after w, versions = before ++ entry :: after ∧
    (∀ e ∈ before, ∃ u, Version.parse e = .ok u) ∧ Version.parse entry = .ok w ∧ v ≤ w

/-- The declared version can be served for the operation. -/
def Serves (support : Support) (declared : String) : Action → Prop
  | .add | .del => declared ∈ support.versions
  | .check => ∃ v, Version.parse declared = .ok v ∧ (⟨0, 4, 0⟩ : Version) ≤ v ∧
      HasNotOlder support.versions v

/-- The declared version cannot be served for the operation, and why. -/
inductive Refuses (support : Support) (declared : String) : Action → Fault → Prop
  /-- ADD and DEL: the version is not listed. -/
  | unlisted {action : Action} : action ≠ .check → declared ∉ support.versions →
      Refuses support declared action ⟨.incompatibleVersion, "incompatible CNI versions",
        support.incompatibleDetails declared⟩
  /-- CHECK: the declared version is none. -/
  | malformed {e : Version.Malformed} : Version.parse declared = .error e →
      Refuses support declared .check ⟨.decoding, e.message, ""⟩
  /-- CHECK: the declared version is older than CHECK. -/
  | tooOld {v : Version} : Version.parse declared = .ok v → ¬ (⟨0, 4, 0⟩ : Version) ≤ v →
      Refuses support declared .check ⟨.incompatibleVersion, "config version does not allow CHECK",
        "config is " ++ Text.quoted declared ++ ", CHECK requires at least " ++
          Text.quoted Version.checkFloor⟩
  /-- CHECK: an entry is no version, and those in front of it are older than the declared one. -/
  | malformedEntry {v : Version} {before after : List String} {entry : String}
      {e : Version.Malformed} : Version.parse declared = .ok v → (⟨0, 4, 0⟩ : Version) ≤ v →
      support.versions = before ++ entry :: after → (∀ e ∈ before, OlderThan v e) →
      Version.parse entry = .error e → Refuses support declared .check ⟨.decoding, e.message, ""⟩
  /-- CHECK: every entry is older than the declared version. -/
  | outdated {v : Version} : Version.parse declared = .ok v → (⟨0, 4, 0⟩ : Version) ≤ v →
      (∀ e ∈ support.versions, OlderThan v e) →
      Refuses support declared .check ⟨.incompatibleVersion, "plugin version does not allow CHECK",
        support.incompatibleDetails declared⟩

/-! ## The search for an entry -/

/-- What a search along the list may end with. -/
def Finds (v : Version) (versions : List String) :
    Except Version.Malformed (Option String) → Prop
  | .error e => ∃ before entry after, versions = before ++ entry :: after ∧
      (∀ e ∈ before, OlderThan v e) ∧ Version.parse entry = .error e
  | .ok none => ∀ e ∈ versions, OlderThan v e
  | .ok (some entry) => ∃ before after w, versions = before ++ entry :: after ∧
      (∀ e ∈ before, OlderThan v e) ∧ Version.parse entry = .ok w ∧ v ≤ w

theorem Finds.cons {v : Version} {entry : String} {versions : List String}
    (he : OlderThan v entry) {found : Except Version.Malformed (Option String)}
    (h : Finds v versions found) : Finds v (entry :: versions) found := by
  have more {before : List String} (hb : ∀ e ∈ before, OlderThan v e) :
      ∀ e ∈ entry :: before, OlderThan v e := by
    intro e hm
    rcases List.mem_cons.mp hm with rfl | hm
    · exact he
    · exact hb e hm
  match found, h with
  | .error e, ⟨before, bad, after, hv, hb, hp⟩ =>
    exact ⟨entry :: before, bad, after, by simp [hv], more hb, hp⟩
  | .ok none, h => exact more h
  | .ok (some other), ⟨before, after, w, hv, hb, hp, hw⟩ =>
    exact ⟨entry :: before, after, w, by simp [hv], more hb, hp, hw⟩

theorem firstNotOlder_finds {declared : String} {v : Version}
    (hd : Version.parse declared = .ok v) (versions : List String) :
    Finds v versions (firstNotOlder declared versions) := by
  induction versions with
  | nil => simp [firstNotOlder, Finds]
  | cons entry versions ih =>
    cases hp : Version.parse entry with
    | error e =>
      simp only [firstNotOlder, Version.atLeast, hp]
      exact ⟨[], entry, versions, rfl, by simp, hp⟩
    | ok w =>
      simp only [firstNotOlder, Version.atLeast_of_ok hp hd]
      cases hw : w.notOlder v with
      | true => exact ⟨[], versions, w, rfl, by simp, hp, Version.notOlder_iff.mp hw⟩
      | false =>
        refine ih.cons ⟨w, hp, fun hle => ?_⟩
        rw [Version.notOlder_iff.mpr hle] at hw
        cases hw

/-- Entries older than the declared version are passed by. -/
theorem firstNotOlder_append {declared : String} {v : Version}
    (hd : Version.parse declared = .ok v) {before : List String}
    (hb : ∀ e ∈ before, OlderThan v e) (rest : List String) :
    firstNotOlder declared (before ++ rest) = firstNotOlder declared rest := by
  induction before with
  | nil => rfl
  | cons entry before ih =>
    obtain ⟨w, hp, hw⟩ := hb entry List.mem_cons_self
    have hw : w.notOlder v = false := by
      rw [Bool.eq_false_iff]
      exact fun h => hw (Version.notOlder_iff.mp h)
    simp only [List.cons_append, firstNotOlder, Version.atLeast_of_ok hp hd, hw]
    exact ih fun e he => hb e (List.mem_cons_of_mem _ he)

theorem firstNotOlder_of_all_older {declared : String} {v : Version}
    (hd : Version.parse declared = .ok v) {versions : List String}
    (ho : ∀ e ∈ versions, OlderThan v e) : firstNotOlder declared versions = .ok none := by
  have hn := firstNotOlder_append hd ho []
  rw [List.append_nil] at hn
  exact hn

/-- An entry that serves is found, or an earlier one is. -/
theorem firstNotOlder_of_hasNotOlder {declared : String} {v : Version}
    (hd : Version.parse declared = .ok v) {versions : List String}
    (h : HasNotOlder versions v) : ∃ entry, firstNotOlder declared versions = .ok (some entry) := by
  obtain ⟨before, entry, after, w, rfl, hb, hp, hw⟩ := h
  induction before with
  | nil =>
    refine ⟨entry, ?_⟩
    simp only [List.nil_append, firstNotOlder, Version.atLeast_of_ok hp hd,
      Version.notOlder_iff.mpr hw]
  | cons first before ih =>
    obtain ⟨u, hu⟩ := hb first List.mem_cons_self
    simp only [List.cons_append, firstNotOlder, Version.atLeast_of_ok hu hd]
    cases u.notOlder v with
    | true => exact ⟨first, rfl⟩
    | false => exact ih fun e he => hb e (List.mem_cons_of_mem _ he)

/-! ## The two rules -/

theorem selectForCheck_of_error {support : Support} {declared : String} {e : Version.Malformed}
    (hd : Version.parse declared = .error e) :
    support.selectForCheck declared = .error (malformedVersion e) := by
  simp only [selectForCheck, Version.atLeast_of_error hd]

/-- Above the floor CHECK goes on to the list. -/
theorem selectForCheck_of_le {support : Support} {declared : String} {v : Version}
    (hd : Version.parse declared = .ok v) (hv : (⟨0, 4, 0⟩ : Version) ≤ v) :
    support.selectForCheck declared = support.select declared := by
  simp only [selectForCheck, Version.atLeast_of_ok hd Version.parse_checkFloor,
    Version.notOlder_iff.mpr hv]

theorem selectForCheck_of_not_le {support : Support} {declared : String} {v : Version}
    (hd : Version.parse declared = .ok v) (hv : ¬ (⟨0, 4, 0⟩ : Version) ≤ v) :
    support.selectForCheck declared =
      .error ⟨.incompatibleVersion, "config version does not allow CHECK",
        "config is " ++ Text.quoted declared ++ ", CHECK requires at least " ++
          Text.quoted Version.checkFloor⟩ := by
  simp only [selectForCheck, Version.atLeast_of_ok hd Version.parse_checkFloor,
    Bool.eq_false_iff.mpr fun h => hv (Version.notOlder_iff.mp h)]

/-- Every operation and declared version is served or refused, and the answer says which. -/
theorem serve_spec (support : Support) (action : Action) (declared : String) :
    support.serve action declared = .ok () ∧ support.Serves declared action ∨
      ∃ fault, support.serve action declared = .error fault ∧
        support.Refuses declared action fault := by
  have listed {action : Action} (ha : action ≠ .check) :
      support.accept declared = .ok () ∧ declared ∈ support.versions ∨
        ∃ fault, support.accept declared = .error fault ∧
          support.Refuses declared action fault := by
    by_cases hl : declared ∈ support.versions
    · exact .inl ⟨by simp [accept, supports, hl], hl⟩
    · exact .inr ⟨_, by simp [accept, supports, hl], .unlisted ha hl⟩
  cases action with
  | add => exact listed (by decide)
  | del => exact listed (by decide)
  | check =>
    cases hd : Version.parse declared with
    | error e =>
      exact .inr ⟨_, by simp only [serve, selectForCheck_of_error hd]; rfl, .malformed hd⟩
    | ok v =>
      by_cases hv : (⟨0, 4, 0⟩ : Version) ≤ v
      case neg =>
        exact .inr ⟨_, by simp only [serve, selectForCheck_of_not_le hd hv], .tooOld hd hv⟩
      case pos =>
        have hf := firstNotOlder_finds hd support.versions
        simp only [serve, selectForCheck_of_le hd hv, select]
        cases hs : firstNotOlder declared support.versions with
        | error e =>
          rw [hs] at hf
          obtain ⟨before, entry, after, hl, hb, hp⟩ := hf
          exact .inr ⟨_, rfl, .malformedEntry hd hv hl hb hp⟩
        | ok selected =>
          rw [hs] at hf
          cases selected with
          | none => exact .inr ⟨_, rfl, .outdated hd hv hf⟩
          | some entry =>
            obtain ⟨before, after, w, hl, hb, hp, hw⟩ := hf
            exact .inl ⟨rfl, v, hd, hv, before, entry, after, w, hl,
              fun e he => (hb e he).imp fun _ h => h.1, hp, hw⟩

theorem serve_of_serves {support : Support} {action : Action} {declared : String}
    (h : support.Serves declared action) : support.serve action declared = .ok () := by
  cases action with
  | add => simpa [serve, accept, supports, Serves] using h
  | del => simpa [serve, accept, supports, Serves] using h
  | check =>
    obtain ⟨v, hd, hv, hn⟩ := h
    obtain ⟨entry, he⟩ := firstNotOlder_of_hasNotOlder hd hn
    simp only [serve, selectForCheck_of_le hd hv, select, he]

theorem serve_of_refuses {support : Support} {action : Action} {declared : String} {fault : Fault}
    (h : support.Refuses declared action fault) : support.serve action declared = .error fault := by
  cases h with
  | unlisted ha hl => cases action <;> simp_all [serve, accept, supports]
  | malformed hd =>
    simp only [serve, selectForCheck_of_error hd]
    rfl
  | tooOld hd hv => simp only [serve, selectForCheck_of_not_le hd hv]
  | malformedEntry hd hv hl hb hp =>
    simp only [serve, selectForCheck_of_le hd hv, select, hl, firstNotOlder_append hd hb,
      firstNotOlder, Version.atLeast_of_error hp]
    rfl
  | outdated hd hv ho =>
    simp only [serve, selectForCheck_of_le hd hv, select, firstNotOlder_of_all_older hd ho]

theorem serve_eq_ok_iff {support : Support} {action : Action} {declared : String} :
    support.serve action declared = .ok () ↔ support.Serves declared action := by
  refine ⟨fun h => ?_, serve_of_serves⟩
  rcases serve_spec support action declared with ⟨-, hs⟩ | ⟨fault, hf, -⟩
  · exact hs
  · rw [h] at hf
    cases hf

theorem serve_eq_error_iff {support : Support} {action : Action} {declared : String}
    {fault : Fault} :
    support.serve action declared = .error fault ↔ support.Refuses declared action fault := by
  refine ⟨fun h => ?_, serve_of_refuses⟩
  rcases serve_spec support action declared with ⟨ho, -⟩ | ⟨other, hf, hr⟩
  · rw [h] at ho
    cases ho
  · rw [h] at hf
    cases hf
    exact hr

end Support
end CniPlugin
