import CniPlugin.NetworkConfig
import CniPlugin.Proofs.PassedValues
/-!
# The declared version

A configuration is read twice, by readers that treat its members differently: the first keeps them
all, the second looks for the version alone and passes over everything else.  Where the first
succeeds, the second goes along member by member, and the version that the first has kept is the one
that the second finds.  The one exception is a version of null, which the first counts as absent and
at which the second breaks off.

Results:
1. `readMember_follows`: what a member does to both readers.
2. `membersWithin_follows`: what all members do.
3. `declaredVersion_eq_ok_iff`: the version declared is the one kept, unless that is empty.
4. `declaredVersion_of_error`, `declaredVersion_of_empty`: what is reported otherwise.
-/

namespace CniPlugin.NetworkConfig

open Json

/-! ## One member -/

/-- The second reader has found what the first has kept. -/
def Agrees (draft : Draft) (found : VersionDraft) : Prop :=
  draft.cniVersion = found.cniVersion.map some

/-- Null is no text. -/
theorem typedText_or_null {s rest : Bytes} {v : Option String}
    (h : orNull (typedText .text) s = .ok (v, rest)) :
    (∃ text, v = some text ∧ typedText .text s = .ok (text, rest)) ∨
      (v = none ∧ ∀ p, typedText .text s ≠ .ok p) := by
  unfold orNull at h
  split at h
  · obtain ⟨text, htext, -⟩ := map_eq_ok_iff.mp h
    cases htext
  · next b r hs =>
    split at h
    · next hb =>
      obtain ⟨⟨⟩, -, rfl⟩ := map_eq_ok_iff.mp h
      refine .inr ⟨rfl, fun p hp => ?_⟩
      obtain ⟨r', hr', -⟩ := textBody_of_typedText hp
      rw [hs, hb] at hr'
      cases hr'
    · obtain ⟨text, htext, rfl⟩ := map_eq_ok_iff.mp h
      refine .inl ⟨text, rfl, ?_⟩
      rw [← htext]
      unfold typedText
      rw [skipBlanks_of_cons hs, hs]

/-- A member that holds what can be passed over is passed over. -/
theorem stray_of_passes {α : Type} {value : Reader α} {s middle rest : Bytes} {a : α}
    (hp : PassesLike middle.length value (passWithin middle)) (hc : skipBlanks s = 0x3A :: middle)
    (h : value middle = .ok (a, rest)) (key : String) (found : VersionDraft) :
    Stray.pass key found s = .ok (found, rest) := by
  obtain ⟨hpass, -⟩ := hp middle middle a rest (Nat.le_refl _) rfl h
  exact bind_eq_ok_iff.mpr ⟨(), middle, colon_eq_ok_iff.mpr hc,
    bind_eq_ok_iff.mpr ⟨(), rest, hpass, rfl⟩⟩

/-- What is kept of a member, by its key. -/
theorem readMember_cases {key : String} {draft draft' : Draft} {s rest : Bytes}
    (h : readMember shape.fields keep key draft s = .ok (draft', rest)) :
    ∃ middle, skipBlanks s = 0x3A :: middle ∧
      ((key = "name" ∧ ∃ v, orNull (typedText .text) middle = .ok (v, rest) ∧
          draft' = { draft with name := some v }) ∨
        (key = "cniVersion" ∧ draft.cniVersion = none ∧
          ∃ v, orNull (typedText .text) middle = .ok (v, rest) ∧
            draft' = { draft with cniVersion := some v }) ∨
        (key ≠ "name" ∧ key ≠ "cniVersion" ∧
          ∃ v, value (depthLimit - 1) middle = .ok (v, rest) ∧
            draft' = { draft with rest := insert key v draft.rest })) := by
  by_cases hn : key = "name"
  · subst hn
    obtain ⟨-, middle, v, hc, hv, rfl⟩ := (readMember_eq_ok_iff rfl).mp h
    exact ⟨middle, hc, .inl ⟨rfl, v, hv, rfl⟩⟩
  by_cases hk : key = "cniVersion"
  · subst hk
    obtain ⟨hd, middle, v, hc, hv, rfl⟩ := (readMember_eq_ok_iff rfl).mp h
    exact ⟨middle, hc, .inr (.inl ⟨rfl, hd, v, hv, rfl⟩)⟩
  · rw [readMember_of_unknown (by simp [shape, Field.of, Ne.symm hn, Ne.symm hk])] at h
    obtain ⟨⟨⟩, middle, hc, h⟩ := bind_eq_ok_iff.mp h
    obtain ⟨v, last, hv, h⟩ := bind_eq_ok_iff.mp h
    cases h
    exact ⟨middle, colon_eq_ok_iff.mp hc, .inr (.inr ⟨hn, hk, v, hv, rfl⟩)⟩

/-- The second reader goes along with the first over a member, or breaks off at a version of
null. -/
theorem readMember_follows {key : String} {draft draft' : Draft} {found : VersionDraft}
    {s rest : Bytes} (ha : Agrees draft found)
    (h : readMember shape.fields keep key draft s = .ok (draft', rest)) :
    (∃ found', readMember versionShape.fields Stray.pass key found s = .ok (found', rest) ∧
        Agrees draft' found') ∨
      (draft'.cniVersion = some none ∧
        ∀ p, readMember versionShape.fields Stray.pass key found s ≠ .ok p) := by
  obtain ⟨middle, hc, ⟨rfl, v, hv, rfl⟩ | ⟨rfl, hd, v, hv, rfl⟩ | ⟨-, hk, v, hv, rfl⟩⟩ :=
    readMember_cases h
  · refine .inl ⟨found, ?_, ha⟩
    rw [readMember_of_unknown rfl]
    exact stray_of_passes (orNull_passes (typedText_passes .text middle)) hc hv _ _
  · have hf : found.cniVersion = none := by
      rw [ha] at hd
      simpa using hd
    -- Only here do the readers part: null is a value for the first and none for the second.
    rcases typedText_or_null hv with ⟨text, rfl, ht⟩ | ⟨rfl, ht⟩
    · exact .inl ⟨⟨some text⟩, (readMember_eq_ok_iff rfl).mpr ⟨hf, middle, text, hc, ht, rfl⟩, rfl⟩
    · refine .inr ⟨rfl, fun p hp => ?_⟩
      obtain ⟨-, middle', text, hc', htext, -⟩ := (readMember_eq_ok_iff rfl).mp hp
      rw [hc] at hc'
      cases hc'
      exact ht _ htext
  · refine .inl ⟨found, ?_, ha⟩
    rw [readMember_of_unknown (by simp [versionShape, Field.of, Ne.symm hk])]
    exact stray_of_passes (value_passes _ middle) hc hv _ _

/-- A version that was kept stays. -/
theorem cniVersion_of_readMember {key : String} {draft draft' : Draft} {s rest : Bytes}
    {v : Option String} (hd : draft.cniVersion = some v)
    (h : readMember shape.fields keep key draft s = .ok (draft', rest)) :
    draft'.cniVersion = some v := by
  obtain ⟨middle, -, ⟨-, _, -, rfl⟩ | ⟨-, hn, -⟩ | ⟨-, -, _, -, rfl⟩⟩ := readMember_cases h
  · exact hd
  · rw [hd] at hn
    cases hn
  · exact hd

/-! ## All members -/

theorem cniVersion_of_membersWithin {rounds s rest : Bytes} {first : Bool} {draft draft' : Draft}
    {v : Option String} (hd : draft.cniVersion = some v)
    (h : membersWithin (readMember shape.fields keep) rounds first draft s = .ok (draft', rest)) :
    draft'.cniVersion = some v := by
  induction rounds generalizing s first draft with
  | nil => cases h
  | cons x rounds ih =>
    obtain ⟨key?, s₁, -, h⟩ := bind_eq_ok_iff.mp h
    cases key? with
    | none =>
      cases h
      exact hd
    | some key =>
      obtain ⟨draft₁, s₂, hm, h⟩ := bind_eq_ok_iff.mp h
      exact ih (cniVersion_of_readMember hd hm) h

/-- The second reader goes along with the first to the closing brace, or breaks off at a version of
null. -/
theorem membersWithin_follows {rounds s rest : Bytes} {first : Bool} {draft draft' : Draft}
    {found : VersionDraft} (ha : Agrees draft found)
    (h : membersWithin (readMember shape.fields keep) rounds first draft s = .ok (draft', rest)) :
    (∃ found', membersWithin (readMember versionShape.fields Stray.pass) rounds first found s =
          .ok (found', rest) ∧ Agrees draft' found') ∨
      (draft'.cniVersion = some none ∧
        ∀ p, membersWithin (readMember versionShape.fields Stray.pass) rounds first found s ≠
          .ok p) := by
  induction rounds generalizing s first draft found with
  | nil => cases h
  | cons x rounds ih =>
    rw [membersWithin]
    obtain ⟨key?, s₁, hk, h⟩ := bind_eq_ok_iff.mp h
    rw [bind_of_ok hk]
    cases key? with
    | none =>
      cases h
      exact .inl ⟨found, rfl, ha⟩
    | some key =>
      obtain ⟨draft₁, s₂, hm, h⟩ := bind_eq_ok_iff.mp h
      rcases readMember_follows ha hm with ⟨found₁, hf, ha₁⟩ | ⟨hnull, hf⟩
      · simp only [bind_of_ok hf]
        exact ih ha₁ h
      · -- Null stays what the first reader has kept, whatever else the object holds.
        refine .inr ⟨cniVersion_of_membersWithin hnull h, fun p hp => ?_⟩
        obtain ⟨found₁, s₃, hf₁, -⟩ := bind_eq_ok_iff.mp hp
        exact hf _ hf₁

/-! ## The whole body -/

/-- A configuration is the content of an object. -/
theorem eq_object_of_read {body : Bytes} {config : NetworkConfig}
    (h : read body = .ok (some config)) :
    ∃ r middle rest draft, skipBlanks body = 0x7B :: r ∧
      members (readMember shape.fields keep) {} r = .ok (draft, middle) ∧
      skipBlanks middle = 0x7D :: rest ∧ skipBlanks rest = [] ∧ config = ofDraft draft := by
  unfold read at h
  cases hr : readDocument (orNull (shape.readObject keep {})) body with
  | error e =>
    rw [hr] at h
    cases h
  | ok draft? =>
    rw [hr] at h
    cases draft? with
    | none => cases h
    | some draft =>
      cases h
      obtain ⟨rest, hn, hend⟩ := readDocument_eq_ok_iff.mp hr
      unfold orNull at hn
      split at hn
      · obtain ⟨d, hd, -⟩ := map_eq_ok_iff.mp hn
        cases hd
      · next b r hs =>
        split at hn
        · obtain ⟨⟨⟩, -, hd⟩ := map_eq_ok_iff.mp hn
          cases hd
        · obtain ⟨d, hd, hsome⟩ := map_eq_ok_iff.mp hn
          cases hsome
          rw [Shape.readObject, skipBlanks_of_cons hs] at hd
          simp only at hd
          split at hd
          · next hb =>
            obtain ⟨middle, hm, hclose⟩ := inObject_eq_ok_iff.mp hd
            obtain ⟨d, m, hmembers, hm⟩ := bind_eq_ok_iff.mp hm
            cases hm
            exact ⟨r, middle, rest, draft, by rw [hs, hb], hmembers, hclose, hend, rfl⟩
          · exact absurd hd wrongType_ne_ok

/-- What the second reader asks of an object. -/
theorem versionDocument_eq_ok_iff {body r : Bytes} {found : VersionDraft}
    (hs : skipBlanks body = 0x7B :: r) :
    readDocument (versionShape.read {}) body = .ok found ↔
      found.cniVersion ≠ none ∧ ∃ middle rest,
        members (readMember versionShape.fields Stray.pass) {} r = .ok (found, middle) ∧
        skipBlanks middle = 0x7D :: rest ∧ skipBlanks rest = [] := by
  have hread : ∀ rest, versionShape.read {} body = .ok (found, rest) ↔
      ∃ middle, recordMembers versionShape.fields Stray.pass {} r = .ok (found, middle) ∧
        skipBlanks middle = 0x7D :: rest := by
    intro rest
    rw [Shape.read, hs]
    exact inObject_eq_ok_iff
  have hmissing : ∀ d : VersionDraft, firstMissing versionShape.fields d =
      if d.cniVersion = none then some "cniVersion" else none := by
    intro d
    obtain ⟨_ | v⟩ := d <;> rfl
  -- The field is required, so it is looked for once the closing brace is reached.
  rw [readDocument_eq_ok_iff]
  constructor
  · rintro ⟨rest, h, hend⟩
    obtain ⟨middle, hm, hclose⟩ := (hread rest).mp h
    obtain ⟨d, m, hmembers, hm⟩ := bind_eq_ok_iff.mp hm
    by_cases hne : d.cniVersion = none
    · rw [hmissing, if_pos hne] at hm
      cases hm
    · rw [hmissing, if_neg hne] at hm
      cases hm
      exact ⟨hne, middle, rest, hmembers, hclose, hend⟩
  · rintro ⟨hne, middle, rest, hmembers, hclose, hend⟩
    refine ⟨rest, (hread rest).mpr ⟨middle, ?_, hclose⟩, hend⟩
    refine bind_eq_ok_iff.mpr ⟨found, middle, hmembers, ?_⟩
    rw [hmissing, if_neg hne]
    rfl

/-- The second reader finds what the first has kept, if that is a version. -/
theorem versionDocument_of_read {body : Bytes} {config : NetworkConfig}
    (h : read body = .ok (some config)) (found : VersionDraft) :
    readDocument (versionShape.read {}) body = .ok found ↔
      ∃ v, config.cniVersion = some v ∧ found = ⟨some v⟩ := by
  obtain ⟨r, middle, rest, draft, hs, hmembers, hclose, hend, rfl⟩ := eq_object_of_read h
  rw [versionDocument_eq_ok_iff hs]
  have hempty : Agrees {} {} := rfl
  rcases membersWithin_follows hempty hmembers with ⟨found', hf, ha⟩ | ⟨hnull, hf⟩
  · constructor
    · rintro ⟨hne, m, -, hm, -, -⟩
      cases hf.symm.trans hm
      obtain ⟨_ | v⟩ := found
      · exact absurd rfl hne
      · exact ⟨v, by rw [ofDraft, ha]; rfl, rfl⟩
    · rintro ⟨v, hv, rfl⟩
      obtain ⟨_ | v'⟩ := found'
      · rw [ofDraft, ha] at hv
        cases hv
      · rw [ofDraft, ha] at hv
        cases hv
        exact ⟨nofun, middle, rest, hf, hclose, hend⟩
  · constructor
    · rintro ⟨-, m, -, hm, -, -⟩
      exact absurd hm (hf _)
    · rintro ⟨v, hv, rfl⟩
      rw [ofDraft, hnull] at hv
      cases hv

/-- The version declared is the one kept, unless that is empty. -/
theorem declaredVersion_eq_ok_iff {body : Bytes} {config : NetworkConfig}
    (h : read body = .ok (some config)) (v : String) :
    declaredVersion body = .ok v ↔ config.cniVersion = some v ∧ v ≠ "" := by
  unfold declaredVersion
  have hfound := versionDocument_of_read h
  cases hd : readDocument (versionShape.read {}) body with
  | error e =>
    constructor
    · intro hv
      cases hv
    · rintro ⟨hv, -⟩
      rw [(hfound ⟨some v⟩).mpr ⟨v, hv, rfl⟩] at hd
      cases hd
  | ok found =>
    obtain ⟨w, hw, rfl⟩ := (hfound found).mp hd
    rw [hw]
    simp only [Option.getD_some, Option.some.injEq]
    constructor
    · intro hv
      split at hv <;> cases hv
      next hne => exact ⟨rfl, hne⟩
    · rintro ⟨rfl, hne⟩
      rw [if_neg hne]

/-- Without a version the second reader fails. -/
theorem versionDocument_of_none {body : Bytes} {config : NetworkConfig}
    (h : read body = .ok (some config)) (hv : config.cniVersion = none) :
    ∃ e, readDocument (versionShape.read {}) body = .error e := by
  cases hd : readDocument (versionShape.read {}) body with
  | error e => exact ⟨e, rfl⟩
  | ok found =>
    obtain ⟨v, hsome, -⟩ := (versionDocument_of_read h found).mp hd
    rw [hv] at hsome
    cases hsome

theorem declaredVersion_of_error {body : Bytes} {e : ReadError}
    (h : readDocument (versionShape.read {}) body = .error e) :
    declaredVersion body =
      .error (.plain .decoding ("decoding version from network config: " ++ e.message)) := by
  simp only [declaredVersion, h]

theorem declaredVersion_of_empty {body : Bytes} {config : NetworkConfig}
    (h : read body = .ok (some config)) (hv : config.cniVersion = some "") :
    declaredVersion body =
      .error (.plain .decoding "decoding version from network config: empty cniVersion") := by
  simp only [declaredVersion, (versionDocument_of_read h ⟨some ""⟩).mpr ⟨"", hv, rfl⟩,
    Option.getD_some, if_true]

end CniPlugin.NetworkConfig
