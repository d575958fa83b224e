import CniPlugin.Proofs.Stages
/-!
# The gate in front of the plugin

Which invocations reach the plugin, and what becomes of the others.  Both are said of the
environment, the input and the configuration themselves, not of what was computed from them on the
way.

Results:
1. `call_eq_some_iff_admits`: the plugin is called exactly for an operation that passes all stages.
2. `not_called_iff_settles`: any other invocation is settled by the first stage that it does not
   pass.
-/

namespace CniPlugin.Session

variable (session : Session) (plugin : Plugin) (offer : Offer) (about : String)

theorem call_of_admits {session : Session} {offer : Offer} {action : Action}
    {parameters : Parameters} {config : Bytes} {declared : String}
    (h : session.Admits offer.support action parameters config declared) (plugin : Plugin)
    (about : String) :
    (session.dispatch plugin offer about).call =
      some (action, parameters.toInvocation (.perform action) config) :=
  (dispatch_of_call (plan_of_admits h about) plugin).1

theorem admits_of_call {session : Session} {plugin : Plugin} {offer : Offer} {about : String}
    {action : Action} {invocation : Invocation}
    (h : (session.dispatch plugin offer about).call = some (action, invocation)) :
    ∃ parameters config declared,
      session.Admits offer.support action parameters config declared ∧
      invocation = parameters.toInvocation (.perform action) config := by
  rcases admits_or_settles session offer about with ⟨_, parameters, config, declared, ha⟩ |
    ⟨result, hs⟩
  · rw [call_of_admits ha] at h
    cases h
    exact ⟨parameters, config, declared, ha, rfl⟩
  · rw [(dispatch_of_settles hs plugin).1] at h
    cases h

/-- Without a call the plugin has no part in what a dispatch does. -/
theorem dispatch_of_no_call {session : Session} {plugin : Plugin} {offer : Offer} {about : String}
    (h : (session.dispatch plugin offer about).call = none) (other : Plugin) :
    session.dispatch other offer about = session.dispatch plugin offer about := by
  cases hp : (session.plan offer.support about).1 with
  | error fault => rw [dispatch_of_error hp, dispatch_of_error hp]
  | ok plan =>
    cases plan with
    | about => rw [dispatch_of_plan hp, dispatch_of_plan hp]; rfl
    | answer => rw [dispatch_of_plan hp, dispatch_of_plan hp]; rfl
    | call action invocation =>
      rw [(dispatch_of_call hp plugin).1] at h
      cases h

/-- The one call of a dispatch is performed after what the session has written before, and its end
is the result. -/
theorem dispatch_of_called {session : Session} {plugin : Plugin} {offer : Offer} {about : String}
    {action : Action} {invocation : Invocation}
    (h : (session.dispatch plugin offer about).call = some (action, invocation)) :
    (session.dispatch plugin offer about).result =
        ((plugin.handle action invocation).perform session.scene).1.result ∧
      (session.dispatch plugin offer about).session.scene =
        ((plugin.handle action invocation).perform session.scene).2 := by
  cases hp : (session.plan offer.support about).1 with
  | error fault =>
    rw [dispatch_of_error hp] at h
    cases h
  | ok plan =>
    cases plan with
    | about =>
      rw [dispatch_of_plan hp] at h
      cases h
    | answer =>
      rw [(dispatch_of_answer hp plugin).1] at h
      cases h
    | call planned taken =>
      rw [(dispatch_of_call hp plugin).1] at h
      cases h
      exact (dispatch_of_call hp plugin).2

/-- The plugin is called for an operation exactly if the invocation passes all stages, and then with
the parameters of the environment and the bytes that the input delivers.  It is called at most once:
the session afterwards and the result are those of one call, or do not depend on the plugin. -/
theorem call_eq_some_iff_admits :
    (∀ action invocation,
      (session.dispatch plugin offer about).call = some (action, invocation) ↔
        ∃ parameters config declared,
          session.Admits offer.support action parameters config declared ∧
          invocation =
            { command := .perform action
              containerId := parameters .containerId
              netns := parameters .netns
              ifName := parameters .ifName
              args := parameters .args
              path := parameters .path
              config := config }) ∧
      match (session.dispatch plugin offer about).call with
      | some (action, invocation) =>
        (session.dispatch plugin offer about).result =
            ((plugin.handle action invocation).perform session.scene).1.result ∧
          (session.dispatch plugin offer about).session.scene =
            ((plugin.handle action invocation).perform session.scene).2
      | none =>
        ∀ other, session.dispatch other offer about = session.dispatch plugin offer about := by
  refine ⟨fun action invocation => ⟨fun h => ?_, ?_⟩, ?_⟩
  · exact admits_of_call h
  · rintro ⟨parameters, config, declared, ha, rfl⟩
    exact call_of_admits ha plugin about
  · cases hc : (session.dispatch plugin offer about).call with
    | none => exact dispatch_of_no_call hc
    | some made => exact dispatch_of_called hc

/-- Without a call the result is that of the first stage that the invocation does not pass. -/
theorem not_called_iff_settles (result : Except Fault Unit) :
    (session.dispatch plugin offer about).call = none ∧
        (session.dispatch plugin offer about).result = result ↔
      session.Settles offer about result := by
  constructor
  · rintro ⟨hc, rfl⟩
    rcases admits_or_settles session offer about with ⟨_, _, _, _, ha⟩ | ⟨other, hs⟩
    · rw [call_of_admits ha] at hc
      cases hc
    · rw [(dispatch_of_settles hs plugin).2]
      exact hs
  · intro h
    exact dispatch_of_settles h plugin

-- An operation without a container, with a path that is no text and an input that breaks off: the
-- path is what is reported.
example :
    let session : Session :=
      { environment := .ofList [("CNI_COMMAND", Text.Utf8.ofString "CHECK"), ("CNI_PATH", [0xFF])]
        input := [.failed "gone"] }
    let plugin : Plugin := ⟨fun _ _ => .done .success⟩
    (match (session.dispatch plugin (Support.offer ⟨["1.0.0"]⟩) "").result with
      | .ok _ => none
      | .error fault => some fault) =
        some ⟨.decoding, "env variable CNI_PATH is not valid UTF-8", ""⟩ := by decide +kernel

end CniPlugin.Session
