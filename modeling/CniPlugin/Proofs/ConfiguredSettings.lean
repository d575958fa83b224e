import CniPlugin.Recorder.Settings
import CniPlugin.Proofs.ReconciledVersion
import CniPlugin.Proofs.PlainReading
/-!
# The settings are those of the configuration

The recorder reads the body that has been validated once more, for its settings.  Both readers fold
the members in the text.  So the recorder finds the name and the version that the validated document
has, and under the keys of its settings the values that the document has kept there, where null
counts as absent.

Results:
1. `foldsBy_take`: what becomes of a draft with one member of the text.
2. `foldlM_take_eq_some_iff`: what becomes of it with all members.
3. `read_eq_ok_iff_of_lists`: the objects that settings are read from.
4. `agreesWith_of_validate`, `settings_of_validate`: the settings of a valid configuration.
5. `kept_of_result?`: the result that a valid configuration has kept.
-/

namespace CniPlugin

open Json

/-! ## Definitions -/

/-- The value that a configuration has under a key, unless it is null. -/
def NetworkConfig.member? (document : NetworkConfig) (key : String) : Option Json :=
  match lookup key document.rest with
  | none | some .null => none
  | some v => some v

/-- The result that a configuration asks for, unless it is null. -/
def NetworkConfig.result? (document : NetworkConfig) : Option Json :=
  document.member? "reportResult"

namespace Recorder.Settings

/-- The settings are those of a configuration. -/
structure AgreesWith (settings : Settings) (document : NetworkConfig) : Prop where
  name : document.name = some settings.name
  cniVersion : document.cniVersion = some settings.cniVersion
  result : settings.result = document.member? "reportResult"
  error : settings.error.map .text = document.member? "reportError"
  errorCode : settings.errorCode.map ofWord = document.member? "reportErrorCode"
  logPath : settings.logPath.map .text = document.member? "commandLog"

/-- A draft after a further member. -/
def Draft.take (draft : Draft) (m : String × Json) : Option Draft :=
  if m.1 = "name" then
    (fillWith text? draft.name m.2).map fun v => { draft with name := some v }
  else if m.1 = "cniVersion" then
    (fillWith text? draft.cniVersion m.2).map fun v => { draft with cniVersion := some v }
  else if m.1 = "reportResult" then
    (fillWith (nullOr some) draft.result m.2).map fun v => { draft with result := some v }
  else if m.1 = "reportError" then
    (fillWith (nullOr text?) draft.error m.2).map fun v => { draft with error := some v }
  else if m.1 = "reportErrorCode" then
    (fillWith (nullOr word?) draft.errorCode m.2).map fun v => { draft with errorCode := some v }
  else if m.1 = "commandLog" then
    (fillWith (nullOr text?) draft.logPath m.2).map fun v => { draft with logPath := some v }
  else some draft

/-! ## One member -/

/-- Where a free value is ahead, the reader of a member takes it into its place or passes over
it. -/
theorem foldsBy_take :
    FoldsBy (depthLimit - 1) (readMember shape.fields Stray.pass) Draft.take := by
  intro key draft s middle v rest hs hv draft' rest'
  by_cases hname : key = "name"
  · subst hname
    rw [readMember_fills rfl (typedText_readsAs .text) hs hv]
    rfl
  by_cases hversion : key = "cniVersion"
  · subst hversion
    rw [readMember_fills rfl (typedText_readsAs .text) hs hv]
    rfl
  by_cases hresult : key = "reportResult"
  · subst hresult
    rw [readMember_fills rfl (orNull_readsAs value_readsAs) hs hv]
    rfl
  by_cases herror : key = "reportError"
  · subst herror
    rw [readMember_fills rfl (orNull_readsAs (typedText_readsAs .text)) hs hv]
    rfl
  by_cases hcode : key = "reportErrorCode"
  · subst hcode
    rw [readMember_fills rfl (orNull_readsAs typedWord_readsAs) hs hv]
    rfl
  by_cases hlog : key = "commandLog"
  · subst hlog
    rw [readMember_fills rfl (orNull_readsAs (typedText_readsAs .path)) hs hv]
    rfl
  · rw [readMember_passes (by simp [shape, Field.of, Ne.symm hname, Ne.symm hversion,
      Ne.symm hresult, Ne.symm herror, Ne.symm hcode, Ne.symm hlog]) hs hv]
    simp [Draft.take, hname, hversion, hresult, herror, hcode, hlog]

/-! ## All members -/

/-- The members of the text fill the places of the draft, each on its own. -/
theorem foldlM_take_eq_some_iff {ms : List (String × Json)} {draft out : Draft} :
    ms.foldlM Draft.take draft = some out ↔
      (ms.filter (·.1 = "name")).foldlM (put text?) draft.name = some out.name ∧
        (ms.filter (·.1 = "cniVersion")).foldlM (put text?) draft.cniVersion =
          some out.cniVersion ∧
        (ms.filter (·.1 = "reportResult")).foldlM (put (nullOr some)) draft.result =
          some out.result ∧
        (ms.filter (·.1 = "reportError")).foldlM (put (nullOr text?)) draft.error =
          some out.error ∧
        (ms.filter (·.1 = "reportErrorCode")).foldlM (put (nullOr word?)) draft.errorCode =
          some out.errorCode ∧
        (ms.filter (·.1 = "commandLog")).foldlM (put (nullOr text?)) draft.logPath =
          some out.logPath := by
  induction ms generalizing draft with
  | nil =>
    cases draft
    cases out
    simp
  | cons m ms ih =>
    obtain ⟨key, v⟩ := m
    by_cases hname : key = "name"
    · subst hname
      cases hfill : fillWith text? draft.name v <;> simp [Draft.take, put, hfill, ih]
    by_cases hversion : key = "cniVersion"
    · subst hversion
      cases hfill : fillWith text? draft.cniVersion v <;> simp [Draft.take, put, hfill, ih]
    by_cases hresult : key = "reportResult"
    · subst hresult
      cases hfill : fillWith (nullOr some) draft.result v <;> simp [Draft.take, put, hfill, ih]
    by_cases herror : key = "reportError"
    · subst herror
      cases hfill : fillWith (nullOr text?) draft.error v <;> simp [Draft.take, put, hfill, ih]
    by_cases hcode : key = "reportErrorCode"
    · subst hcode
      cases hfill : fillWith (nullOr word?) draft.errorCode v <;> simp [Draft.take, put, hfill, ih]
    by_cases hlog : key = "commandLog"
    · subst hlog
      cases hfill : fillWith (nullOr text?) draft.logPath v <;> simp [Draft.take, put, hfill, ih]
    · simp [Draft.take, hname, hversion, hresult, herror, hcode, hlog, ih]

/-! ## The whole body -/

theorem firstMissing_eq_none_iff {draft : Draft} :
    firstMissing shape.fields draft = none ↔ draft.name ≠ none ∧ draft.cniVersion ≠ none := by
  cases hname : draft.name <;> cases hversion : draft.cniVersion <;>
    simp [firstMissing, shape, Field.of, hname, hversion]

/-- Settings are read from an object whose members can be folded, if there are a name and a
version. -/
theorem read_eq_ok_iff_of_lists {body : Bytes} {ms : List (String × Json)} (h : Lists body ms)
    {settings : Settings} :
    read body = .ok settings ↔
      ∃ draft, (ms.foldlM Draft.take {} = some draft ∧ draft.name ≠ none ∧
        draft.cniVersion ≠ none) ∧ settings = ofDraft draft := by
  have hread (draft : Draft) : readDocument (shape.read {}) body = .ok draft ↔
      ms.foldlM Draft.take {} = some draft ∧ draft.name ≠ none ∧ draft.cniVersion ≠ none := by
    rw [readDocument_eq_ok_iff_of_lists foldsBy_take h, firstMissing_eq_none_iff]
  simp only [← hread, read]
  cases readDocument (shape.read {}) body with
  | error e => exact ⟨nofun, fun ⟨_, hdraft, _⟩ => nomatch hdraft⟩
  | ok draft => simp [Functor.map, Except.map, eq_comm]

/-! ## The settings of a valid configuration -/

/-- A text that has been found is the one that the configuration has. -/
theorem eq_of_textOnce {key : String} {ms : List (String × Json)} {text : String}
    {kept : Option String} (honce : NetworkConfig.TextOnce key ms kept)
    (h : (ms.filter (·.1 = key)).foldlM (put text?) none = some (some text)) :
    kept = some text := by
  rcases foldlM_put_eq_some_iff.mp h with ⟨-, ⟨⟩⟩ | ⟨m, t, hone, ht, ⟨⟩⟩
  obtain ⟨k, v⟩ := m
  obtain rfl := text?_eq_some_iff.mp ht
  cases honce with
  | absent hnone =>
    rw [hnone] at hone
    cases hone
  | null hnull =>
    rw [hnull] at hone
    cases hone
  | text htext =>
    rw [htext] at hone
    cases hone
    rfl

/-- What has been found under a key is what the configuration has kept there. -/
theorem map_eq_member? {α : Type} {convert : Json → Option α} {back : α → Json}
    (hback : ∀ v a, convert v = some a → v = back a) {document : NetworkConfig}
    {ms : List (String × Json)} {key : String} {after : Option (Option α)}
    (hkept : lookup key document.rest = lookup key ms.reverse)
    (h : (ms.filter (·.1 = key)).foldlM (put (nullOr convert)) none = some after) :
    (after.getD none).map back = document.member? key := by
  rw [NetworkConfig.member?, hkept]
  rcases lookup_of_put h with ⟨hnone, rfl⟩ | ⟨v, a?, hsome, hconvert, rfl⟩
  · rw [hnone]
    rfl
  · rw [hsome]
    by_cases hnull : v = .null
    · subst hnull
      cases hconvert
      rfl
    · rw [nullOr_of_ne hnull] at hconvert
      obtain ⟨a, ha, rfl⟩ := Option.map_eq_some_iff.mp hconvert
      rw [Option.getD_some, Option.map_some, ← hback v a ha]
      cases v with
      | null => exact absurd rfl hnull
      | bool | number | text | list | object => rfl

/-- The settings of a valid configuration are what it has kept. -/
theorem agreesWith_of_validate {body : Bytes} {document : NetworkConfig} {settings : Settings}
    (hv : NetworkConfig.validate body = .ok document) (h : read body = .ok settings) :
    settings.AgreesWith document := by
  obtain ⟨hlists, -, onceName, onceVersion, -, hkept⟩ :=
    NetworkConfig.read_eq_some_iff_saysAs.mp (NetworkConfig.validate_eq_ok_iff.mp hv).1
  obtain ⟨draft, ⟨hfold, hn, hver⟩, rfl⟩ := (read_eq_ok_iff_of_lists hlists).mp h
  obtain ⟨hname, hversion, hresult, herror, hcode, hpath⟩ := foldlM_take_eq_some_iff.mp hfold
  obtain ⟨name, hn⟩ := Option.ne_none_iff_exists'.mp hn
  obtain ⟨version, hver⟩ := Option.ne_none_iff_exists'.mp hver
  rw [hn] at hname
  rw [hver] at hversion
  have htext (v : Json) (t : String) (ht : text? v = some t) : v = .text t :=
    text?_eq_some_iff.mp ht
  have hword (v : Json) (n : UInt32) (hn : word? v = some n) : v = ofWord n :=
    word?_eq_some_iff.mp hn
  have hfound : (draft.result.getD none).map id = document.member? "reportResult" :=
    map_eq_member? (fun _ _ he => Option.some.inj he) (hkept _ rfl) hresult
  exact
    { name := by rw [eq_of_textOnce onceName hname, ofDraft, hn, Option.getD_some]
      cniVersion := by rw [eq_of_textOnce onceVersion hversion, ofDraft, hver, Option.getD_some]
      result := by rw [ofDraft, ← hfound, Option.map_id_apply]
      error := map_eq_member? htext (hkept _ rfl) herror
      errorCode := map_eq_member? hword (hkept _ rfl) hcode
      logPath := map_eq_member? htext (hkept _ rfl) hpath }

/-- The settings of a valid configuration have its name, its version and its result. -/
theorem settings_of_validate {body : Bytes} {document : NetworkConfig} {settings : Settings}
    (hv : NetworkConfig.validate body = .ok document) (h : parse body = .ok settings) :
    document.name = some settings.name ∧ document.cniVersion = some settings.cniVersion ∧
      settings.result = document.result? := by
  have hread : read body = .ok settings := by
    unfold parse at h
    split at h <;> cases h
    assumption
  have hagrees := agreesWith_of_validate hv hread
  exact ⟨hagrees.name, hagrees.cniVersion, hagrees.result⟩

theorem mem_of_lookup {key : String} {members : List (String × Json)} {v : Json}
    (h : lookup key members = some v) : (key, v) ∈ members := by
  induction members with
  | nil => cases h
  | cons m members ih =>
    rw [lookup] at h
    split at h
    · next hk =>
      cases h
      exact hk ▸ List.mem_cons_self
    · exact List.mem_cons_of_mem m (ih h)

/-- The result in a valid configuration is a value that can be written and read again. -/
theorem kept_of_result? {body : Bytes} {document : NetworkConfig} {v : Json}
    (hv : NetworkConfig.validate body = .ok document) (h : document.result? = some v) :
    Kept depthLimit v := by
  have hlookup : lookup "reportResult" document.rest = some v := by
    unfold NetworkConfig.result? NetworkConfig.member? at h
    split at h
    · cases h
    · cases h
    · next hl => exact h ▸ hl
  obtain ⟨-, hkept⟩ := NetworkConfig.kept_of_read (NetworkConfig.validate_eq_ok_iff.mp hv).1
  exact (hkept _ (mem_of_lookup hlookup)).2.mono (Nat.sub_le _ _)

end Recorder.Settings
end CniPlugin
