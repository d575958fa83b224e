import CniPlugin.Proofs.DeclaredVersion
import CniPlugin.Proofs.ListedRecords
/-!
# A configuration is read as plain JSON

The reader of configurations treats the name and the version apart from the other members, and asks
of these two what plain JSON does not: each may occur once, and has to be null or a text.  Apart
from that it accepts the objects of plain JSON, and null, and it keeps of them what plain JSON
keeps.

Results:
1. `readsBy_take`: what becomes of a draft with one member of the text.
2. `foldlM_take_eq_some_iff`: what becomes of it with all members.
3. `read_eq_some_iff`, `read_eq_none_iff`: the configurations that are read.
4. `kept_of_read`: the members of a configuration that has been read.
5. `parse_plain`: the comparison with plain JSON, for every body.
-/

namespace CniPlugin.NetworkConfig

open Json

/-! ## Definitions -/

/-- A key occurs at most once among the members of a text, and then with null or a text; null counts
as absent. -/
inductive TextOnce (key : String) (ms : List (String × Json)) : Option String → Prop
  | absent : ms.filter (·.1 = key) = [] → TextOnce key ms none
  | null : ms.filter (·.1 = key) = [(key, .null)] → TextOnce key ms none
  | text {t : String} : ms.filter (·.1 = key) = [(key, .text t)] → TextOnce key ms (some t)

/-- A key of the plugin's own. -/
def isStray (key : String) : Bool := key ≠ "name" ∧ key ≠ "cniVersion"

/-- The members that belong to the plugin. -/
def strays (ms : List (String × Json)) : List (String × Json) := ms.filter fun m => isStray m.1

/-- A configuration says what the object of plain JSON says.  The object is given twice: by the
members in its text, and by those that plain JSON keeps of them. -/
inductive SaysAs (body : Bytes) (config : NetworkConfig) : Prop
  | intro {ms kept : List (String × Json)} : Lists body ms → Json.parse body = .ok (.object kept) →
      TextOnce "name" ms config.name → TextOnce "cniVersion" ms config.cniVersion →
      config.rest = strays kept →
      (∀ key, isStray key → lookup key config.rest = lookup key ms.reverse) → SaysAs body config

/-- A draft after a further member: the name and the version are null or a text, and are put into
places that are still empty. -/
def Draft.take (draft : Draft) (m : String × Json) : Option Draft :=
  if m.1 = "name" then
    (fillWith (nullOr text?) draft.name m.2).map fun t => { draft with name := some t }
  else if m.1 = "cniVersion" then
    (fillWith (nullOr text?) draft.cniVersion m.2).map fun t => { draft with cniVersion := some t }
  else some { draft with rest := insert m.1 m.2 draft.rest }

/-! ## One member -/

theorem nullOr_text?_eq_some_iff {v : Json} {t : Option String} :
    nullOr text? v = some t ↔ v = .null ∧ t = none ∨ ∃ text, v = .text text ∧ t = some text := by
  cases v <;> simp [nullOr, text?, eq_comm]

/-- A member with a place of its own is put there, if that is still empty. -/
theorem readMember_placed_iff {key : String} {get : Draft → Option (Option String)}
    {set : Option String → Draft → Draft}
    (hf : shape.fields.find? (·.key = key) =
      some (.of key false get set (orNull (typedText .text))))
    {draft draft' : Draft} {s rest : Bytes} :
    readMember shape.fields keep key draft s = .ok (draft', rest) ↔
      ∃ middle v, skipBlanks s = 0x3A :: middle ∧
        value (depthLimit - 1) middle = .ok (v, rest) ∧
        (fillWith (nullOr text?) (get draft) v).map (set · draft) = some draft' := by
  have hreads : ReadsAs (depthLimit - 1) (orNull (typedText .text)) (nullOr text?) :=
    orNull_readsAs (typedText_readsAs .text)
  simp only [readMember_eq_ok_iff hf, Option.map_eq_some_iff, fillWith_eq_some_iff]
  constructor
  · rintro ⟨hnone, middle, t, hc, ht, hset⟩
    obtain ⟨v, hv, hconvert⟩ := (hreads _ _ _).mp ht
    exact ⟨middle, v, hc, hv, t, ⟨hnone, hconvert⟩, hset⟩
  · rintro ⟨middle, v, hc, hv, t, ⟨hnone, hconvert⟩, hset⟩
    exact ⟨hnone, middle, t, hc, (hreads _ _ _).mpr ⟨v, hv, hconvert⟩, hset⟩

/-- The reader of a member reads it as a free value, and `take` says what becomes of it. -/
theorem readsBy_take : ReadsBy (depthLimit - 1) (readMember shape.fields keep) Draft.take := by
  intro key draft s draft' rest
  by_cases hname : key = "name"
  · subst hname
    rw [readMember_placed_iff rfl]
    rfl
  by_cases hversion : key = "cniVersion"
  · subst hversion
    rw [readMember_placed_iff rfl]
    rfl
  · rw [readMember_of_unknown (by simp [shape, Field.of, Ne.symm hname, Ne.symm hversion])]
    simp only [keep, bind_eq_ok_iff, Draft.take, if_neg hname, if_neg hversion, Option.some.injEq]
    constructor
    · rintro ⟨⟨⟩, middle, hc, v, s₁, hv, h⟩
      cases h
      exact ⟨middle, v, colon_eq_ok_iff.mp hc, hv, rfl⟩
    · rintro ⟨middle, v, hc, hv, rfl⟩
      exact ⟨(), middle, colon_eq_ok_iff.mpr hc, v, rest, hv, rfl⟩

/-! ## All members -/

/-- What fills a place is there at most once. -/
theorem exists_put_text_iff {key : String} {ms : List (String × Json)} {kept : Option String} :
    (∃ after, (ms.filter (·.1 = key)).foldlM (put (nullOr text?)) none = some after ∧
      after.getD none = kept) ↔ TextOnce key ms kept := by
  have hkey {m : String × Json} (h : ms.filter (·.1 = key) = [m]) : m.1 = key := by
    have hm : m ∈ ms.filter (·.1 = key) := h ▸ List.mem_singleton.mpr rfl
    simpa using (List.mem_filter.mp hm).2
  simp only [foldlM_put_eq_some_iff]
  constructor
  · rintro ⟨after, ⟨hnil, rfl⟩ | ⟨⟨k, v⟩, t, hone, hconvert, rfl⟩, rfl⟩
    · exact .absent hnil
    · cases hkey hone
      obtain ⟨rfl, rfl⟩ | ⟨text, rfl, rfl⟩ := nullOr_text?_eq_some_iff.mp hconvert
      · exact .null hone
      · exact .text hone
  · intro h
    cases h with
    | absent hnil => exact ⟨none, .inl ⟨hnil, rfl⟩, rfl⟩
    | null hone => exact ⟨some none, .inr ⟨_, _, hone, rfl, rfl⟩, rfl⟩
    | text hone => exact ⟨some _, .inr ⟨_, _, hone, rfl, rfl⟩, rfl⟩

/-- The members of the text fill the two places and leave the rest to the plugin, each on its
own. -/
theorem foldlM_take_eq_some_iff {ms : List (String × Json)} {draft out : Draft} :
    ms.foldlM Draft.take draft = some out ↔
      (ms.filter (·.1 = "name")).foldlM (put (nullOr text?)) draft.name = some out.name ∧
        (ms.filter (·.1 = "cniVersion")).foldlM (put (nullOr text?)) draft.cniVersion =
          some out.cniVersion ∧
        (strays ms).foldl (fun acc m => insert m.1 m.2 acc) draft.rest = out.rest := by
  induction ms generalizing draft with
  | nil =>
    obtain ⟨name, cniVersion, rest⟩ := draft
    obtain ⟨name', cniVersion', rest'⟩ := out
    simp [strays]
  | cons m ms ih =>
    obtain ⟨key, v⟩ := m
    by_cases hname : key = "name"
    · subst hname
      cases hfill : fillWith (nullOr text?) draft.name v with
      | none => simp [Draft.take, put, hfill]
      | some t => simp [Draft.take, put, hfill, ih, strays, isStray]
    by_cases hversion : key = "cniVersion"
    · subst hversion
      cases hfill : fillWith (nullOr text?) draft.cniVersion v with
      | none => simp [Draft.take, put, hfill]
      | some t => simp [Draft.take, put, hfill, ih, strays, isStray]
    · simp [Draft.take, hname, hversion, ih, strays, isStray]

/-! ## The whole body -/

theorem readObject_of_inObject {s r rest : Bytes} {draft : Draft} (hs : skipBlanks s = 0x7B :: r)
    (h : inObject (members (readMember shape.fields keep) {}) r = .ok (draft, rest)) :
    orNull (shape.readObject keep {}) s = .ok (some draft, rest) := by
  obtain ⟨middle, hmembers, hclose⟩ := inObject_eq_ok_iff.mp h
  have hobject : shape.readObject keep {} (0x7B :: r) = .ok (draft, rest) := by
    rw [Shape.readObject, skipBlanks_of_cons hs]
    -- No field is required, so none is missing.
    exact inObject_eq_ok_iff.mpr
      ⟨middle, bind_eq_ok_iff.mpr ⟨draft, middle, hmembers, rfl⟩, hclose⟩
  rw [orNull, hs]
  exact map_of_ok hobject _

/-- The configurations that are read: the members of an object, each in its place. -/
theorem read_eq_some_iff {body : Bytes} {config : NetworkConfig} :
    read body = .ok (some config) ↔
      ∃ ms draft, Lists body ms ∧ ms.foldlM Draft.take {} = some draft ∧
        config = ofDraft draft := by
  constructor
  · intro h
    obtain ⟨r, middle, rest, draft, hs, hmembers, hclose, hend, rfl⟩ := eq_object_of_read h
    obtain ⟨ms, hms, hfold⟩ := (inObject_members_eq_ok_iff readsBy_take).mp
      (inObject_eq_ok_iff.mpr ⟨middle, hmembers, hclose⟩)
    exact ⟨ms, draft, ⟨r, rest, hs, hms, hend⟩, hfold, rfl⟩
  · rintro ⟨ms, draft, ⟨r, rest, hs, hms, hend⟩, hfold, rfl⟩
    have h := readObject_of_inObject hs
      ((inObject_members_eq_ok_iff readsBy_take).mpr ⟨ms, hms, hfold⟩)
    rw [read, readDocument_eq_ok_iff.mpr ⟨rest, h, hend⟩]
    rfl

theorem orNull_eq_none_iff {α : Type} {reader : Reader α} {s rest : Bytes} :
    orNull reader s = .ok (none, rest) ↔
      ∃ r, skipBlanks s = 0x6E :: r ∧ word restOfNull r = .ok ((), rest) := by
  unfold orNull
  constructor
  · intro h
    split at h
    · obtain ⟨_, -, ⟨⟩⟩ := map_eq_ok_iff.mp h
    · next b r hs =>
      split at h
      · next hb =>
        obtain ⟨⟨⟩, hw, -⟩ := map_eq_ok_iff.mp h
        exact ⟨r, hb ▸ hs, hw⟩
      · obtain ⟨_, -, ⟨⟩⟩ := map_eq_ok_iff.mp h
  · rintro ⟨r, hs, hw⟩
    rw [hs]
    exact map_of_ok hw _

/-- Null is read as no configuration, and nothing else is. -/
theorem read_eq_none_iff {body : Bytes} :
    read body = .ok none ↔ Json.parse body = .ok .null := by
  have hdraft : read body = .ok none ↔
      readDocument (orNull (shape.readObject keep {})) body = .ok none := by
    unfold read
    cases readDocument (orNull (shape.readObject keep {})) body with
    | error e => exact ⟨nofun, nofun⟩
    | ok draft? => cases draft? <;> simp [Functor.map, Except.map]
  rw [hdraft, Json.parse, readDocument_eq_ok_iff, readDocument_eq_ok_iff]
  exact exists_congr fun rest =>
    and_congr_left fun _ => orNull_eq_none_iff.trans value_eq_null_iff.symm

/-- A configuration is read exactly from what says the same as plain JSON. -/
theorem read_eq_some_iff_saysAs {body : Bytes} {config : NetworkConfig} :
    read body = .ok (some config) ↔ SaysAs body config := by
  rw [read_eq_some_iff]
  constructor
  · rintro ⟨ms, draft, hlists, hfold, rfl⟩
    obtain ⟨hname, hversion, hrest⟩ := foldlM_take_eq_some_iff.mp hfold
    have hstrays : draft.rest = strays (collect ms) := by
      rw [← hrest]
      exact (filter_collect isStray ms).symm
    refine .intro hlists (parse_eq_object_iff.mpr ⟨ms, hlists, rfl⟩)
      (exists_put_text_iff.mp ⟨_, hname, rfl⟩) (exists_put_text_iff.mp ⟨_, hversion, rfl⟩) hstrays ?_
    intro key hstray
    show lookup key draft.rest = _
    rw [hstrays, strays, lookup_filter hstray, lookup_collect]
  · rintro @⟨ms, kept, hlists, hplain, hname, hversion, hrest, -⟩
    have hkept := parse_eq_object_iff.mpr ⟨ms, hlists, rfl⟩
    rw [hplain] at hkept
    cases hkept
    obtain ⟨name, hname, hname'⟩ := exists_put_text_iff.mpr hname
    obtain ⟨version, hversion, hversion'⟩ := exists_put_text_iff.mpr hversion
    refine ⟨ms, ⟨name, version, config.rest⟩, hlists,
      foldlM_take_eq_some_iff.mpr ⟨hname, hversion, ?_⟩, ?_⟩
    · rw [hrest]
      exact (filter_collect isStray ms).symm
    · cases config
      simp only at hname' hversion'
      rw [ofDraft, hname', hversion']

/-- The members of a configuration that has been read: sorted, the plugin's own, and nested no
deeper than they may be. -/
theorem kept_of_read {body : Bytes} {document : NetworkConfig}
    (h : read body = .ok (some document)) :
    SortedKeys document.rest ∧
      ∀ m ∈ document.rest, isStray m.1 = true ∧ Kept (depthLimit - 1) m.2 := by
  obtain ⟨-, hplain, -, -, hrest, -⟩ := read_eq_some_iff_saysAs.mp h
  obtain ⟨rest, hvalue, -⟩ := readDocument_eq_ok_iff.mp hplain
  obtain ⟨hsorted, hkept⟩ := kept_of_value hvalue
  rw [hrest]
  refine ⟨hsorted.filter _, fun m hm => ?_⟩
  obtain ⟨hm, hstray⟩ := List.mem_filter.mp hm
  exact ⟨hstray, hkept m hm⟩

theorem parse_eq_ok_iff {body : Bytes} {config? : Option NetworkConfig} :
    parse body = .ok config? ↔ read body = .ok config? := by
  unfold parse
  cases read body <;> simp

/-- Compared with plain JSON, for every body: null is no configuration; a configuration is an object
in whose text the name and the version occur at most once each, and then with null or a text; and
whatever else the body is, it is malformed, in particular if plain JSON refuses it. -/
theorem parse_plain (body : Bytes) :
    (parse body = .ok none ↔ Json.parse body = .ok .null) ∧
      (∀ config, parse body = .ok (some config) ↔ SaysAs body config) ∧
      ((∃ message, parse body =
          .error ⟨.decoding, "error unmarshall network config: " ++ message, ""⟩) ↔
        Json.parse body ≠ .ok .null ∧ ∀ config, ¬ SaysAs body config) ∧
      ((∃ e, Json.parse body = .error e) → ∃ message, parse body =
        .error ⟨.decoding, "error unmarshall network config: " ++ message, ""⟩) := by
  have hok (config? : Option NetworkConfig) :
      parse body = .ok config? ↔ read body = .ok config? := by
    unfold parse
    cases read body <;> simp
  have hnull := (hok none).trans read_eq_none_iff
  have hsome (config : NetworkConfig) := (hok (some config)).trans read_eq_some_iff_saysAs
  have hfails : (∃ message, parse body =
      .error ⟨.decoding, "error unmarshall network config: " ++ message, ""⟩) ↔
        Json.parse body ≠ .ok .null ∧ ∀ config, ¬ SaysAs body config := by
    constructor
    · rintro ⟨message, h⟩
      refine ⟨fun hn => ?_, fun config hs => ?_⟩
      · rw [hnull.mpr hn] at h
        cases h
      · rw [(hsome config).mpr hs] at h
        cases h
    · rintro ⟨hn, hs⟩
      cases hread : read body with
      | error e => exact ⟨e.message, by rw [parse, hread]; rfl⟩
      | ok config? =>
        cases config? with
        | none => exact absurd (read_eq_none_iff.mp hread) hn
        | some config => exact absurd (read_eq_some_iff_saysAs.mp hread) (hs config)
  refine ⟨hnull, hsome, hfails, ?_⟩
  rintro ⟨e, he⟩
  refine hfails.mpr ⟨fun hn => ?_, fun config hs => ?_⟩
  · rw [he] at hn
    cases hn
  · cases hs with
    | intro _ hplain =>
      rw [he] at hplain
      cases hplain

/-- A body with repeated members on two levels, an escaped key and a version of null. -/
def repeating : Bytes := Text.Utf8.ofString ("\x7b\"a\":1,\"name\":\"n\"," ++
  "\"a\":[2.50,\x7b\"b\":1,\"b\":null\x7d],\"cniV\\u0065rsion\":null\x7d")

/-- The last of the repeated members stays; without the closing brace nothing does. -/
theorem repeating_read :
    (∃ config, parse repeating = .ok (some config) ∧ SaysAs repeating config ∧
      config.name = some "n" ∧ config.cniVersion = none ∧
      (Json.object config.rest).compact =
        Text.Utf8.ofString "\x7b\"a\":[2.5,\x7b\"b\":null\x7d]\x7d") ∧
      (∃ e, Json.parse repeating.dropLast = .error e) ∧
      ∃ message, parse repeating.dropLast =
        .error ⟨.decoding, "error unmarshall network config: " ++ message, ""⟩ := by
  have hread : ((parse repeating).toOption.bind id).map
      (fun config => (config.name, config.cniVersion, (Json.object config.rest).compact)) =
        some (some "n", none, Text.Utf8.ofString "\x7b\"a\":[2.5,\x7b\"b\":null\x7d]\x7d") := by
    decide +kernel
  obtain ⟨config, hconfig, hparts⟩ := Option.map_eq_some_iff.mp hread
  obtain ⟨_, hparse, rfl⟩ := Option.bind_eq_some_iff.mp hconfig
  obtain ⟨hname, hversion, hrest⟩ := by simpa only [Prod.mk.injEq] using hparts
  have hparse := Json.ok_of_toOption hparse
  have hcut : ∃ e, Json.parse repeating.dropLast = .error e := by
    have hnone : (Json.parse repeating.dropLast).toOption.isNone := by decide +kernel
    cases hr : Json.parse repeating.dropLast with
    | error e => exact ⟨e, rfl⟩
    | ok v =>
      rw [hr] at hnone
      cases hnone
  exact ⟨⟨config, hparse, ((parse_plain repeating).2.1 config).mp hparse, hname, hversion, hrest⟩,
    hcut, (parse_plain repeating.dropLast).2.2.2 hcut⟩

end CniPlugin.NetworkConfig
