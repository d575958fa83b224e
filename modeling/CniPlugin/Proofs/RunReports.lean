import CniPlugin.Proofs.Stages
import CniPlugin.Proofs.ReportRoundTrip
/-!
# A run is a dispatch and its report

A run does what a dispatch does; if the dispatch ends with a fault, the run adds one document to
what the handler or the answer to VERSION has written until then, and the fault can be read back
from it.

Results:
1. `output_of_dispatch`: what a dispatch adds to a stream with room.
2. `run_reports`: what a run adds, and what else it does.
-/

namespace CniPlugin

namespace Session

/-! ## What a dispatch writes -/

/-- The variables ask for the supported versions. -/
def AsksVersions (session : Session) : Prop :=
  ∃ parameters, session.environment.Gives session.lookups parameters ∧
    parameters .command = "VERSION"

/-- The bytes that a dispatch writes: those of the handler that is called, or those of the answer to
VERSION, or none. -/
def Writes (session : Session) (plugin : Plugin) (offer : Offer) (about : String)
    (written : Bytes) : Prop :=
  match (session.dispatch plugin offer about).call with
  | some (action, invocation) =>
    written = (plugin.handle action invocation).written session.scene
  | none =>
    session.AsksVersions ∧ written = offer.encode.written session.scene ∨
      ¬ session.AsksVersions ∧ written = []

theorem output_of_scene {session : Session} {scene : Scene} (h : session.scene = scene) :
    session.output = scene.output := by
  rw [← h]
  rfl

/-- A dispatch adds to a stream with room what it writes, and nothing else. -/
theorem output_of_dispatch {session : Session} (h : session.output.limit = none) (plugin : Plugin)
    (offer : Offer) (about : String) :
    ∃ written, session.Writes plugin offer about written ∧
      (session.dispatch plugin offer about).session.output =
        session.output.followedBy written := by
  have kept := output_of_scene (scene_plan session offer.support about)
  -- Which of the two ways to write without a call applies is told by the plan.
  have asks := plan_eq_answer_iff session offer.support about
  cases hp : (session.plan offer.support about).1 with
  | error fault =>
    rw [hp] at asks
    refine ⟨[], ?_, ?_⟩
    · rw [Writes, dispatch_of_error hp]
      exact .inr ⟨fun ha => (nomatch asks.mpr ha), rfl⟩
    · rw [dispatch_of_error hp, Output.followedBy_nil]
      exact kept
  | ok plan =>
    rw [hp] at asks
    cases plan with
    | about =>
      refine ⟨[], ?_, ?_⟩
      · rw [Writes, dispatch_of_plan hp]
        exact .inr ⟨fun ha => (nomatch asks.mpr ha), rfl⟩
      · rw [dispatch_of_plan hp, Output.followedBy_nil]
        exact kept
    | answer =>
      obtain ⟨hcall, -, hscene⟩ := dispatch_of_answer hp plugin
      refine ⟨offer.encode.written session.scene, ?_, ?_⟩
      · rw [Writes, hcall]
        exact .inl ⟨asks.mp rfl, rfl⟩
      · rw [output_of_scene hscene]
        exact offer.encode.output_of_perform h
    | call action invocation =>
      obtain ⟨hcall, -, hscene⟩ := dispatch_of_call hp plugin
      refine ⟨(plugin.handle action invocation).written session.scene, ?_, ?_⟩
      · rw [Writes, hcall]
      · rw [output_of_scene hscene]
        exact (plugin.handle action invocation).output_of_perform h

/-! ## What a run writes -/

/-- One document in JSON, ended by a line feed, from which the fault can be read, and the version of
this library. -/
def Reports (document : Bytes) (fault : Fault) : Prop :=
  (∃ text, document = text ++ [0x0A]) ∧ Fault.read document = .ok fault ∧
    Report.read document = .ok ⟨Version.current, fault⟩

theorem reports_printed (fault : Fault) : Reports (Report.ofFault fault).printed fault :=
  ⟨⟨_, rfl⟩, Fault.read_printed fault, Report.read_printed _⟩

theorem report_error {session : Session} (h : session.output.limit = none) (fault : Fault) :
    session.report (.error fault) =
      { session with output := session.output.followedBy (Report.ofFault fault).printed } := by
  have hscene : session.scene.output.limit = none := h
  show { session with
    output := (fault.print.perform session.scene).2.output
    files := (fault.print.perform session.scene).2.files } = _
  rw [Fault.perform_print fault hscene]
  rfl

/-- On a stream with room, a run makes the call of the dispatch and leaves everything but the output
as the dispatch does.  Its status tells whether there is a fault.  Without a fault it writes what
the dispatch writes; with a fault, one document behind that, which reports the fault. -/
theorem run_reports {session : Session} (h : session.output.limit = none) (plugin : Plugin)
    (offer : Offer) (about : String) :
    (session.run plugin offer about).call = (session.dispatch plugin offer about).call ∧
      (session.run plugin offer about).session =
        { (session.dispatch plugin offer about).session with
          output := (session.run plugin offer about).session.output } ∧
      ∃ written, session.Writes plugin offer about written ∧
        (session.dispatch plugin offer about).session.output =
          session.output.followedBy written ∧
        match (session.dispatch plugin offer about).result with
        | .ok () =>
          (session.run plugin offer about).status = 0 ∧
            (session.run plugin offer about).session.output = session.output.followedBy written
        | .error fault =>
          (session.run plugin offer about).status = 1 ∧
            ∃ document, Reports document fault ∧
              (session.run plugin offer about).session.output =
                session.output.followedBy (written ++ document) := by
  obtain ⟨written, hwrites, hout⟩ := output_of_dispatch h plugin offer about
  -- There is still room for the report, since a stream without a limit never gets one.
  have hroom : (session.dispatch plugin offer about).session.output.limit = none := by
    rw [hout]
    exact h
  cases hr : (session.dispatch plugin offer about).result with
  | ok _ =>
    have hrun : (session.run plugin offer about).session =
        (session.dispatch plugin offer about).session := by
      rw [run, hr]
      rfl
    rw [hrun]
    refine ⟨rfl, rfl, written, hwrites, hout, ?_, hout⟩
    rw [Dispatched.status, run, hr]
    rfl
  | error fault =>
    have hrun : (session.run plugin offer about).session =
        { (session.dispatch plugin offer about).session with
          output := (session.dispatch plugin offer about).session.output.followedBy
            (Report.ofFault fault).printed } := by
      rw [run, hr, report_error hroom]
    refine ⟨rfl, ?_, written, hwrites, hout, ?_, _, reports_printed fault, ?_⟩
    · rw [hrun]
    · rw [Dispatched.status, run, hr]
      rfl
    · rw [hrun, hout, Output.followedBy_append]

/-- An attachment whose configuration arrives in two parts, on a stream that cannot be flushed. -/
def attaching : Session where
  environment := .ofList
    [("CNI_COMMAND", Text.Utf8.ofString "ADD"), ("CNI_CONTAINERID", Text.Utf8.ofString "c"),
     ("CNI_NETNS", Text.Utf8.ofString "n"), ("CNI_IFNAME", Text.Utf8.ofString "e"),
     ("CNI_PATH", Text.Utf8.ofString "/bin")]
  input :=
    [.bytes (Text.Utf8.ofString "\x7b\"name\":\"n\","), .interrupted,
     .bytes (Text.Utf8.ofString "\"cniVersion\":\"0.4.0\"\x7d")]
  output := { flushFailure := some "flush failed" }

/-- A plugin whose handlers break off in the middle of a document. -/
def breakingOff : Plugin where
  handle _ _ := .write [0x7B] fun _ => .flush fun _ => .done (.crash none)

/-- What a handler wrote before it broke off stays in front of the report. -/
theorem breakingOff_reports :
    attaching.output.limit = none ∧
      ∃ document, Reports document ⟨.handler, "unknown panic payload", "plugin handler panicked"⟩ ∧
        (attaching.run breakingOff (Support.offer ⟨["0.4.0"]⟩) "").status = 1 ∧
        (attaching.run breakingOff (Support.offer ⟨["0.4.0"]⟩) "").session.output.content =
          0x7B :: document := by
  have hroom : attaching.output.limit = none := rfl
  have hrun := run_reports hroom breakingOff (Support.offer ⟨["0.4.0"]⟩) ""
  have hcontent : (attaching.dispatch breakingOff (Support.offer ⟨["0.4.0"]⟩)
      "").session.output.content = [0x7B] := by decide +kernel
  have hfault : (match (attaching.dispatch breakingOff (Support.offer ⟨["0.4.0"]⟩) "").result with
      | .ok _ => none
      | .error fault => some fault) =
        some ⟨.handler, "unknown panic payload", "plugin handler panicked"⟩ := by decide +kernel
  refine ⟨hroom, ?_⟩
  -- From here on the session and its plugin are of no account.
  generalize attaching = session at hrun hcontent hfault ⊢
  generalize breakingOff = plugin at hrun hcontent hfault ⊢
  obtain ⟨-, -, written, -, hout, hrun⟩ := hrun
  rw [hout] at hcontent
  cases hr : (session.dispatch plugin (Support.offer ⟨["0.4.0"]⟩) "").result with
  | ok _ =>
    rw [hr] at hfault
    cases hfault
  | error fault =>
    rw [hr] at hfault hrun
    cases hfault
    obtain ⟨hstatus, document, hreports, hadded⟩ := hrun
    refine ⟨document, hreports, hstatus, ?_⟩
    rw [hadded, Output.followedBy_append, Output.content_followedBy, hcontent]
    rfl

end Session
end CniPlugin
