import CniPlugin.Proofs.HandlerGate
import CniPlugin.Proofs.RunReports
/-!
# What is reported for the end of a handler

However a handler ends, the runtime gets success or one fault.  A fault that the handler raised is
reported as it is, whatever its kind.  Any other error becomes a fault of the handler that names all
its causes, and so does a crash; a fault among the causes lends its text and nothing else.

Results:
1. `chained_iff`: the details name the error and its causes, nearest first.
2. `result_eq_iff_reported`: each ending is reported in one way.
3. `ending_reported`: what a call is reported as by a dispatch and by a run.
-/

namespace CniPlugin

/-! ## Definitions -/

/-- How an error is shown: a fault shows its message, and its details if there are any. -/
inductive Complaint.Shows : Complaint → String → Prop
  | text (message : String) : Shows (.text message) message
  | plain {fault : Fault} : fault.details = "" → Shows (.fault fault) fault.message
  | detailed {fault : Fault} : fault.details ≠ "" →
      Shows (.fault fault) (fault.message ++ "; " ++ fault.details)

namespace Outcome

/-- A message followed by those of the causes, each behind a colon. -/
inductive Chained : String → List Complaint → String → Prop
  | alone (message : String) : Chained message [] message
  | caused {message shown details : String} {cause : Complaint} {causes : List Complaint} :
      cause.Shows shown → Chained shown causes details →
      Chained message (cause :: causes) (message ++ ": " ++ details)

/-- What is reported for the end of a handler. -/
inductive Reported : Outcome → Except Fault Unit → Prop
  | success : Reported .success (.ok ())
  /-- A fault is reported as it is. -/
  | raised (fault : Fault) (causes : List Complaint) :
      Reported (.failure (.fault fault) causes) (.error fault)
  /-- Any other error is a fault of the handler, with its causes in the details. -/
  | wrapped {message details : String} {causes : List Complaint} :
      Chained message causes details →
      Reported (.failure (.text message) causes) (.error ⟨.handler, message, details⟩)
  /-- So is a crash with a message … -/
  | crashed (message : String) :
      Reported (.crash (some message)) (.error ⟨.handler, message, "plugin handler panicked"⟩)
  /-- … or without one. -/
  | crashedSilently : Reported (.crash none)
      (.error ⟨.handler, "unknown panic payload", "plugin handler panicked"⟩)

end Outcome

/-! ## Causes -/

theorem Complaint.shows_iff {complaint : Complaint} {shown : String} :
    complaint.Shows shown ↔ complaint.message = shown := by
  constructor
  · intro h
    cases h with
    | text message => rfl
    | plain hnone => simp only [message, Fault.text, hnone, if_true]
    | detailed hsome => simp only [message, Fault.text, if_neg hsome]
  · rintro rfl
    cases complaint with
    | text message => exact .text message
    | fault fault =>
      rw [message, Fault.text]
      split
      · next hnone => exact .plain hnone
      · next hsome => exact .detailed hsome

namespace Outcome

/-- A further cause in front adds its message and a colon. -/
theorem chain_cons (message : String) (cause : Complaint) (causes : List Complaint) :
    chain (.text message) (cause :: causes) =
      message ++ ": " ++ chain (.text cause.message) causes := by
  simp only [chain, List.map_cons, String.intercalate_cons_cons, Complaint.message]

theorem chained_iff {message details : String} {causes : List Complaint} :
    Chained message causes details ↔ chain (.text message) causes = details := by
  induction causes generalizing message details with
  | nil =>
    have halone : chain (.text message) [] = message := String.intercalate_singleton
    rw [halone]
    constructor
    · rintro ⟨⟩
      rfl
    · rintro rfl
      exact .alone message
  | cons cause causes ih =>
    rw [chain_cons]
    constructor
    · intro h
      cases h with
      | caused hshows hrest => rw [Complaint.shows_iff.mp hshows, ih.mp hrest]
    · rintro rfl
      exact .caused (Complaint.shows_iff.mpr rfl) (ih.mpr rfl)

/-! ## Endings -/

theorem reported_result (outcome : Outcome) : outcome.Reported outcome.result := by
  cases outcome with
  | success => exact .success
  | failure error causes =>
    cases error with
    | fault fault => exact .raised fault causes
    | text message => exact .wrapped (chained_iff.mpr rfl)
  | crash message =>
    cases message with
    | none => exact .crashedSilently
    | some message => exact .crashed message

/-- Each ending is reported in one way. -/
theorem result_eq_iff_reported {outcome : Outcome} {result : Except Fault Unit} :
    outcome.result = result ↔ outcome.Reported result := by
  constructor
  · rintro rfl
    exact outcome.reported_result
  · intro h
    cases h with
    | success => rfl
    | raised fault causes => rfl
    | wrapped hchained => rw [← chained_iff.mp hchained]; rfl
    | crashed message => rfl
    | crashedSilently => rfl

end Outcome

/-! ## Calls -/

namespace Session

/-- The result of a dispatch that calls the plugin is what is reported for the end of the handler,
for any operation.  On a stream with room, a run exits with a failure exactly if that is a fault,
and then prints one document behind what the handler has written, from which that fault is read. -/
theorem ending_reported {session : Session} {plugin : Plugin} {offer : Offer} {about : String}
    {action : Action} {invocation : Invocation}
    (h : (session.dispatch plugin offer about).call = some (action, invocation)) :
    (∀ result, (session.dispatch plugin offer about).result = result ↔
        ((plugin.handle action invocation).perform session.scene).1.Reported result) ∧
      (session.output.limit = none →
        (∀ fault,
          ((plugin.handle action invocation).perform session.scene).1.Reported (.error fault) →
          (session.run plugin offer about).status = 1 ∧
            ∃ document, Reports document fault ∧
              (session.run plugin offer about).session.output = session.output.followedBy
                ((plugin.handle action invocation).written session.scene ++ document)) ∧
        (((plugin.handle action invocation).perform session.scene).1.Reported (.ok ()) →
          (session.run plugin offer about).status = 0 ∧
            (session.run plugin offer about).session.output = session.output.followedBy
              ((plugin.handle action invocation).written session.scene))) := by
  have hresult : ∀ result, (session.dispatch plugin offer about).result = result ↔
      ((plugin.handle action invocation).perform session.scene).1.Reported result := by
    intro result
    rw [(dispatch_of_called h).1]
    exact Outcome.result_eq_iff_reported
  refine ⟨hresult, fun hroom => ?_⟩
  obtain ⟨-, -, written, hwrites, -, hrun⟩ := run_reports hroom plugin offer about
  -- Only the handler that is called has written anything.
  rw [Writes, h] at hwrites
  subst hwrites
  refine ⟨fun fault hfault => ?_, fun hok => ?_⟩
  · rw [(hresult (.error fault)).mpr hfault] at hrun
    exact hrun
  · rw [(hresult (.ok ())).mpr hok] at hrun
    exact hrun

/-- A plugin whose error has a fault as its last cause. -/
def entangled : Plugin where
  handle _ _ := .done
    (.failure (.text "link lost") [.text "no carrier", .fault ⟨.networkConfig, "bad \"mtu\"", "9"⟩])

/-- The fault lends its text to the details, and not its kind to what is reported. -/
theorem entangled_reported :
    (∃ call, (attaching.dispatch entangled (Support.offer ⟨["0.4.0"]⟩) "").call = some call) ∧
      attaching.output.limit = none ∧
      (attaching.dispatch entangled (Support.offer ⟨["0.4.0"]⟩) "").result =
        .error ⟨.handler, "link lost", "link lost: no carrier: bad \"mtu\"; 9"⟩ ∧
      (attaching.run entangled (Support.offer ⟨["0.4.0"]⟩) "").status = 1 := by
  have hcall : ∃ call,
      (attaching.dispatch entangled (Support.offer ⟨["0.4.0"]⟩) "").call = some call :=
    Option.isSome_iff_exists.mp (by decide +kernel)
  obtain ⟨⟨action, invocation⟩, h⟩ := hcall
  have hreported : ((entangled.handle action invocation).perform attaching.scene).1.Reported
      (.error ⟨.handler, "link lost", "link lost: no carrier: bad \"mtu\"; 9"⟩) :=
    Outcome.result_eq_iff_reported.mp (by rfl)
  obtain ⟨hresult, hrun⟩ := ending_reported h
  exact ⟨⟨_, h⟩, rfl, (hresult _).mpr hreported, ((hrun rfl).1 _ hreported).1⟩

end Session
end CniPlugin
