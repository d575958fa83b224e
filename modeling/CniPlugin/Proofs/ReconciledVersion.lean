import CniPlugin.Proofs.Stages
/-!
# The version that is reconciled

A configuration that was validated is read a second time, for its version alone, by a reader that
passes over everything else.  What that reader finds is the version of the very document that was
validated, so the version that is compared with the supported ones is never that of another reading
of the same bytes.

Results:
1. `validate_eq_ok_iff`: a body is valid if it is read as a document that names its network.
2. `reconciles_version?`: the version of the validated document is reconciled.
3. `readings_agree`: the second reading finds the version of the validated document, and that is the
   one that is reconciled.
-/

namespace CniPlugin

/-! ## Definitions -/

/-- The version of a configuration, if it is there and not empty. -/
def NetworkConfig.version? (document : NetworkConfig) : Option String :=
  document.cniVersion.bind nonEmpty?

/-- What becomes of an invocation whose configuration is valid: its version decides, if there is
one. -/
def Session.Reconciles (session : Session) (plugin : Plugin) (offer : Offer) (about : String)
    (action : Action) (invocation : Invocation) : Option String → Prop
  | some version =>
    (offer.support.Serves version action →
      (session.dispatch plugin offer about).call = some (action, invocation)) ∧
    ∀ fault, offer.support.Refuses version action fault →
      (session.dispatch plugin offer about).call = none ∧
        (session.dispatch plugin offer about).result = .error fault
  | none =>
    (session.dispatch plugin offer about).call = none ∧
      ∃ message, (session.dispatch plugin offer about).result = .error ⟨.decoding, message, ""⟩

/-! ## The two readings -/

namespace NetworkConfig

theorem version?_eq_some_iff {document : NetworkConfig} {version : String} :
    document.version? = some version ↔ document.cniVersion = some version ∧ version ≠ "" := by
  unfold version? nonEmpty?
  cases document.cniVersion with
  | none => simp
  | some text =>
    by_cases ht : text = ""
    · simp [ht, eq_comm]
    · simp only [Option.bind_some, if_neg ht, Option.some.injEq]
      exact ⟨fun h => ⟨h, h ▸ ht⟩, fun h => h.1⟩

/-- A body is valid if it is read as a document that names its network. -/
theorem validate_eq_ok_iff {body : Bytes} {document : NetworkConfig} :
    validate body = .ok document ↔
      read body = .ok (some document) ∧ ∃ name, document.name = some name ∧ name ≠ "" := by
  constructor
  · intro h
    unfold validate parse at h
    cases hr : read body with
    | error e =>
      rw [hr] at h
      cases h
    | ok document? =>
      rw [hr] at h
      cases document? with
      | none => cases h
      | some other =>
        cases hn : other.name with
        | none =>
          simp only [hn] at h
          cases h
        | some name =>
          simp only [hn] at h
          split at h
          · cases h
          · next hne =>
            cases h
            exact ⟨rfl, name, hn, hne⟩
  · rintro ⟨hr, name, hn, hne⟩
    exact Session.validate_of_named hr hn hne

theorem declaredVersion_of_version? {body : Bytes} {document : NetworkConfig}
    (h : validate body = .ok document) {version : String}
    (hv : document.version? = some version) : declaredVersion body = .ok version :=
  (declaredVersion_eq_ok_iff (validate_eq_ok_iff.mp h).1 version).mpr (version?_eq_some_iff.mp hv)

/-- Without a version, or with an empty one, the second reading fails. -/
theorem declaredVersion_of_no_version {body : Bytes} {document : NetworkConfig}
    (h : validate body = .ok document) (hv : document.version? = none) :
    ∃ message, declaredVersion body = .error ⟨.decoding, message, ""⟩ := by
  obtain ⟨hread, -⟩ := validate_eq_ok_iff.mp h
  cases hc : document.cniVersion with
  | none =>
    obtain ⟨e, he⟩ := versionDocument_of_none hread hc
    exact ⟨_, declaredVersion_of_error he⟩
  | some text =>
    by_cases ht : text = ""
    · subst ht
      exact ⟨_, declaredVersion_of_empty hread hc⟩
    · rw [version?_eq_some_iff.mpr ⟨hc, ht⟩] at hv
      cases hv

end NetworkConfig

/-! ## Reconciling -/

namespace Session

theorem reconciles_version? {session : Session} {action : Action} {parameters : Parameters}
    {body : Bytes} {left : Input} {document : NetworkConfig} (asks : session.Asks action parameters)
    (hd : session.input.Delivers body left) (hv : NetworkConfig.validate body = .ok document)
    (plugin : Plugin) (offer : Offer) (about : String) :
    session.Reconciles plugin offer about action (parameters.toInvocation (.perform action) body)
      document.version? := by
  have hplan := plan_of_validated asks hd hv offer.support about
  cases hversion : document.version? with
  | none =>
    obtain ⟨message, hm⟩ := NetworkConfig.declaredVersion_of_no_version hv hversion
    rw [hm] at hplan
    rw [Reconciles, dispatch_of_error hplan]
    exact ⟨rfl, message, rfl⟩
  | some version =>
    rw [NetworkConfig.declaredVersion_of_version? hv hversion] at hplan
    refine ⟨fun hs => ?_, fun fault hr => ?_⟩
    · simp only [Support.serve_of_serves hs] at hplan
      exact (dispatch_of_call hplan plugin).1
    · simp only [Support.serve_of_refuses hr] at hplan
      rw [dispatch_of_error hplan]
      exact ⟨rfl, rfl⟩

end Session

/-- Where a body is valid, the second reading finds the version of the document that was validated,
and fails if that is missing or empty.  Whatever session the body arrives in, this version is the
one that is reconciled. -/
theorem NetworkConfig.readings_agree {body : Bytes} {document : NetworkConfig}
    (h : validate body = .ok document) :
    (∀ version, declaredVersion body = .ok version ↔
        document.cniVersion = some version ∧ version ≠ "") ∧
      ((¬ ∃ version, document.cniVersion = some version ∧ version ≠ "") →
        ∃ message, declaredVersion body = .error ⟨.decoding, message, ""⟩) ∧
      ∀ (session : Session) (action : Action) (parameters : Parameters) (left : Input)
        (plugin : Plugin) (offer : Offer) (about : String),
        session.Asks action parameters → session.input.Delivers body left →
        session.Reconciles plugin offer about action
          (parameters.toInvocation (.perform action) body) document.version? := by
  refine ⟨declaredVersion_eq_ok_iff (validate_eq_ok_iff.mp h).1, fun hnone => ?_, ?_⟩
  · refine declaredVersion_of_no_version h (Option.eq_none_iff_forall_ne_some.mpr ?_)
    exact fun version hv => hnone ⟨version, version?_eq_some_iff.mp hv⟩
  · intro session action parameters left plugin offer about asks hd
    exact Session.reconciles_version? asks hd h plugin offer about

/-- A body whose version stands behind an escaped key, after members that are nested, written twice
and out of the range of integers. -/
def NetworkConfig.intricate : Bytes := Text.Utf8.ofString
  "\x7b\"x\":[[\x7b\"cniVersion\":1\x7d]],\"x\":-1.5e300,\"cniV\\u0065rsion\":\"0.4.0\",\"name\":\"n\"\x7d"

theorem NetworkConfig.intricate_declares :
    ∃ document, validate intricate = .ok document ∧ document.cniVersion = some "0.4.0" ∧
      declaredVersion intricate = .ok "0.4.0" := by
  have hkept : (validate intricate).toOption.bind (·.cniVersion) = some "0.4.0" := by
    decide +kernel
  obtain ⟨document, hvalid, hversion⟩ := Option.bind_eq_some_iff.mp hkept
  have h := Json.ok_of_toOption hvalid
  exact ⟨document, h, hversion, ((readings_agree h).1 "0.4.0").mpr ⟨hversion, by decide⟩⟩

end CniPlugin
