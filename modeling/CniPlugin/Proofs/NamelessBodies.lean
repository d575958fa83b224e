import CniPlugin.Proofs.Stages
import CniPlugin.Proofs.PlainReading
/-!
# Configurations that name no network

A configuration without a name is refused.  What is said of it depends on its other members, since
it is read as a whole before the name is asked for: the version has to be null or a text, and may
not be repeated.  A body that is neither null nor an object is no configuration at all.

Results:
1. `nameless_iff`: that a body has no name can be seen from what plain JSON keeps of it.
2. `fits_iff_of_nameless`: the bodies without a name that are read.
3. `nameless_refused`: what becomes of an operation with such a body.
-/

namespace CniPlugin

/-! ## Definitions -/

namespace NetworkConfig

open Json

/-- No member in the text of the body has the key of the name. -/
def Nameless (body : Bytes) : Prop := ∀ ms, Lists body ms → ∀ m ∈ ms, m.1 ≠ "name"

/-- Apart from a name the body is a configuration: null, or an object in whose text the version
occurs at most once, and then with null or a text. -/
inductive Fits (body : Bytes) : Prop
  | null : Json.parse body = .ok .null → Fits body
  | object {ms : List (String × Json)} {version? : Option String} : Lists body ms →
      TextOnce "cniVersion" ms version? → Fits body

end NetworkConfig

/-! ## Bodies without a name -/

theorem Json.lookup_eq_none_iff {key : String} {ms : List (String × Json)} :
    lookup key ms = none ↔ ∀ m ∈ ms, m.1 ≠ key := by
  induction ms with
  | nil => simp [lookup]
  | cons m ms ih =>
    rw [lookup, List.forall_mem_cons, ← ih]
    split
    · next heq => simp [heq]
    · next hne => simp [Ne.symm hne]

namespace NetworkConfig

open Json

/-- Plain JSON keeps a member of each key, so it keeps a name if there is one. -/
theorem nameless_iff {body : Bytes} :
    Nameless body ↔ ∀ kept, Json.parse body = .ok (.object kept) → lookup "name" kept = none := by
  have hkept (ms : List (String × Json)) :
      lookup "name" (collect ms) = none ↔ ∀ m ∈ ms, m.1 ≠ "name" := by
    rw [lookup_collect, lookup_eq_none_iff]
    simp only [List.mem_reverse]
  constructor
  · intro h kept hparse
    obtain ⟨ms, hlists, rfl⟩ := parse_eq_object_iff.mp hparse
    exact (hkept ms).mpr (h ms hlists)
  · intro h ms hlists
    exact (hkept ms).mp (h _ (parse_eq_object_iff.mpr ⟨ms, hlists, rfl⟩))

/-- Whether plain JSON keeps a name. -/
def keepsName (body : Bytes) : Bool :=
  match Json.parse body with
  | .ok (.object kept) => (lookup "name" kept).isSome
  | _ => false

instance (body : Bytes) : Decidable (Nameless body) :=
  decidable_of_iff (keepsName body = false) (by
    rw [nameless_iff, keepsName]
    split
    · next kept hkept => simp [hkept]
    · next hnot => exact ⟨fun _ kept hkept => absurd hkept (hnot kept), fun _ => rfl⟩)

theorem Nameless.textOnce {body : Bytes} (h : Nameless body) {ms : List (String × Json)}
    (hlists : Lists body ms) : TextOnce "name" ms none :=
  .absent (List.filter_eq_nil_iff.mpr fun m hm => by simpa using h ms hlists m hm)

theorem Nameless.name_eq_none {body : Bytes} (h : Nameless body) {document : NetworkConfig}
    (hread : read body = .ok (some document)) : document.name = none := by
  obtain ⟨hlists, -, hname, -, -, -⟩ := read_eq_some_iff_saysAs.mp hread
  generalize document.name = name? at hname ⊢
  cases hname with
  | absent => rfl
  | null => rfl
  | text hone =>
    have hm := List.mem_filter.mp (hone ▸ List.mem_singleton.mpr rfl)
    exact absurd rfl (h _ hlists _ hm.1)

/-- Without a name, whatever is of the type of a configuration is read. -/
theorem fits_iff_of_nameless {body : Bytes} (h : Nameless body) :
    Fits body ↔ ∃ document?, read body = .ok document? := by
  constructor
  · intro hfits
    cases hfits with
    | null hnull => exact ⟨none, read_eq_none_iff.mpr hnull⟩
    | @object ms version? hlists hversion =>
      obtain ⟨name, hname, -⟩ := exists_put_text_iff.mpr (h.textOnce hlists)
      obtain ⟨version, hversion, -⟩ := exists_put_text_iff.mpr hversion
      exact ⟨_, read_eq_some_iff.mpr ⟨ms, ⟨name, version, _⟩, hlists,
        foldlM_take_eq_some_iff.mpr ⟨hname, hversion, rfl⟩, rfl⟩⟩
  · rintro ⟨document?, hread⟩
    cases document? with
    | none => exact .null (read_eq_none_iff.mp hread)
    | some document =>
      obtain ⟨hlists, -, -, hversion, -, -⟩ := read_eq_some_iff_saysAs.mp hread
      exact .object hlists hversion

end NetworkConfig

/-! ## Operations -/

namespace Session

open NetworkConfig (Nameless Fits)

/-- An operation whose configuration has no name does not reach the plugin.  It fails for the
missing name if the body is of the type of a configuration, and as malformed if it is not. -/
theorem nameless_refused {session : Session} {action : Action} {parameters : Parameters}
    {body : Bytes} {left : Input} (asks : session.Asks action parameters)
    (hdelivered : session.input.Delivers body left) (hnameless : Nameless body) (plugin : Plugin)
    (offer : Offer) (about : String) :
    (session.dispatch plugin offer about).call = none ∧
      (Fits body → (session.dispatch plugin offer about).result =
        .error ⟨.networkConfig, "missing network name", ""⟩) ∧
      (¬ Fits body → ∃ message, (session.dispatch plugin offer about).result =
        .error ⟨.decoding, "error unmarshall network config: " ++ message, ""⟩) := by
  rw [NetworkConfig.fits_iff_of_nameless hnameless]
  cases hread : NetworkConfig.read body with
  | ok document? =>
    have hsettles : session.Settles offer about
        (.error ⟨.networkConfig, "missing network name", ""⟩) := by
      refine .unnamed asks hdelivered hread ?_
      rintro document rfl
      exact .inl (hnameless.name_eq_none hread)
    obtain ⟨hcall, hresult⟩ := dispatch_of_settles hsettles plugin
    exact ⟨hcall, fun _ => hresult, fun hnot => absurd ⟨document?, rfl⟩ hnot⟩
  | error e =>
    have hsettles : session.Settles offer about
        (.error ⟨.decoding, "error unmarshall network config: " ++ e.message, ""⟩) :=
      .malformed asks hdelivered hread
    obtain ⟨hcall, hresult⟩ := dispatch_of_settles hsettles plugin
    exact ⟨hcall, fun ⟨_, hok⟩ => (nomatch hok), fun _ => ⟨e.message, hresult⟩⟩

/-- An operation that lacks nothing, with a body that arrives at once. -/
def requesting (action : Action) (body : Bytes) : Session where
  environment := .ofList
    [("CNI_COMMAND", Text.Utf8.ofString action.name), ("CNI_CONTAINERID", Text.Utf8.ofString "c"),
     ("CNI_NETNS", Text.Utf8.ofString "n"), ("CNI_IFNAME", Text.Utf8.ofString "e"),
     ("CNI_PATH", Text.Utf8.ofString "/bin")]
  input := [.bytes body]

def requestedParameters (action : Action) : Parameters
  | .command => action.name
  | .containerId => "c"
  | .netns => "n"
  | .ifName => "e"
  | .args => ""
  | .path => "/bin"

theorem asks_requesting (action : Action) (body : Bytes) :
    (requesting action body).Asks action (requestedParameters action) where
  given p := by
    cases p with
    | args => exact .inl ⟨rfl, rfl⟩
    | _ => exact .inr rfl
  command := rfl
  complete := by cases action <;> decide

theorem delivers_requesting (action : Action) (body : Bytes) :
    (requesting action body).input.Delivers body [] :=
  ⟨[.bytes body], by simp [Segment.goesOn], by simp [Input.content], .inr ⟨rfl, rfl⟩⟩

/-- A list of other members, and a version of null. -/
def listing : Bytes := Text.Utf8.ofString "\x7b\"a\":[1],\"cniVersion\":null,\"a\":2\x7d"

/-- A version that is a number. -/
def numbering : Bytes := Text.Utf8.ofString "\x7b\"cniVersion\":4\x7d"

theorem listing_numbering_refused :
    let plugin : Plugin := ⟨fun _ _ => .done .success⟩
    let offer := Support.offer ⟨["0.4.0"]⟩
    Fits listing ∧ ((requesting .check listing).dispatch plugin offer "").result =
        .error ⟨.networkConfig, "missing network name", ""⟩ ∧
      ¬ Fits numbering ∧ ∃ message, ((requesting .del numbering).dispatch plugin offer "").result =
        .error ⟨.decoding, "error unmarshall network config: " ++ message, ""⟩ := by
  intro plugin offer
  have hlisting : Nameless listing := by decide +kernel
  have hnumbering : Nameless numbering := by decide +kernel
  have hfits : Fits listing := by
    have hsome : (NetworkConfig.read listing).toOption.isSome := by decide +kernel
    obtain ⟨document?, hread⟩ := Option.isSome_iff_exists.mp hsome
    exact (NetworkConfig.fits_iff_of_nameless hlisting).mpr ⟨_, Json.ok_of_toOption hread⟩
  have hfitsNot : ¬ Fits numbering := by
    have hnone : (NetworkConfig.read numbering).toOption.isNone := by decide +kernel
    intro h
    obtain ⟨document?, hread⟩ := (NetworkConfig.fits_iff_of_nameless hnumbering).mp h
    rw [hread] at hnone
    cases hnone
  have hchecked := nameless_refused (asks_requesting .check listing)
    (delivers_requesting .check listing) hlisting plugin offer ""
  have hreleased := nameless_refused (asks_requesting .del numbering)
    (delivers_requesting .del numbering) hnumbering plugin offer ""
  exact ⟨hfits, hchecked.2.1 hfits, hfitsNot, hreleased.2.2 hfitsNot⟩

/-- Plain JSON without a name is not always refused for the missing name. -/
theorem nameless_not_always_unnamed :
    ¬ ∀ (session : Session) (action : Action) (parameters : Parameters) (body : Bytes)
        (left : Input) (v : Json), session.Asks action parameters →
        session.input.Delivers body left → Json.parse body = .ok v → Nameless body →
        ∀ (plugin : Plugin) (offer : Offer) (about : String),
          (session.dispatch plugin offer about).result =
            .error ⟨.networkConfig, "missing network name", ""⟩ := by
  intro h
  obtain ⟨v, hv⟩ : ∃ v, Json.parse numbering = .ok v := by
    have hsome : (Json.parse numbering).toOption.isSome := by decide +kernel
    obtain ⟨v, hv⟩ := Option.isSome_iff_exists.mp hsome
    exact ⟨v, Json.ok_of_toOption hv⟩
  have hunnamed := h (requesting .add numbering) .add _ numbering [] v
    (asks_requesting .add numbering) (delivers_requesting .add numbering) hv (by decide +kernel)
    ⟨fun _ _ => .done .success⟩ (Support.offer ⟨["0.4.0"]⟩) ""
  have hdecodes : (match ((requesting .add numbering).dispatch ⟨fun _ _ => .done .success⟩
      (Support.offer ⟨["0.4.0"]⟩) "").result with
    | .ok _ => none
    | .error fault => some fault.kind) = some .decoding := by decide +kernel
  rw [hunnamed] at hdecodes
  cases hdecodes

end Session
end CniPlugin
