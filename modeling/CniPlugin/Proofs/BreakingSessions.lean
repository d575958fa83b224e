import CniPlugin.Proofs.BreakingOutput
import CniPlugin.Proofs.Stages
import CniPlugin.Recorder
/-!
# Sessions on a stream that breaks

A session serves one invocation after the other, and at some point its output stream may break: in
the output of a handler, in the answer to VERSION or in the report of a fault.  Another fault than
before may then be raised, and it is not reported any more.  But everything else goes on as on a
stream with room, the stream is left with the first bytes of what it would have got, no failure
becomes a success, and what is reported as a success has been written completely.

Results:
1. `run_cut`: one run on a stream that breaks, compared with the same run on a stream with room.
2. `after_cut`: the session after any number of runs.
3. `breaking_truncates`: every run of a session on a stream that breaks.
-/

namespace CniPlugin

/-! ## Definitions -/

/-- What is reported is a fault. -/
def Outcome.Fails (outcome : Outcome) : Prop := ∃ fault, outcome.result = .error fault

/-- Writes all bytes; a failure of the stream is the error of the handler, which otherwise ends with
an outcome. -/
def Conduct.writing (bytes : Bytes) (outcome : Outcome) : Conduct Outcome :=
  .write bytes fun
    | some text => .done (.failure (.text text) [])
    | none => .done outcome

/-- One of the invocations that a session serves, with the environment, the plugin and the offer it
is served with. -/
structure Step where
  environment : Environment
  plugin : Plugin
  offer : Offer
  about : String

/-- Neither a handler nor the answer to VERSION goes on after a failed write, and both report it. -/
structure Step.StopsWhenFull (step : Step) : Prop where
  handlers : ∀ action invocation,
    (step.plugin.handle action invocation).StopsWhenFull Outcome.Fails
  answer : step.offer.encode.StopsWhenFull (· ≠ none)

namespace Session

/-- Runs the invocation of a step. -/
def serve (session : Session) (step : Step) : Dispatched :=
  { session with environment := step.environment }.run step.plugin step.offer step.about

/-- The session after some steps. -/
def after (session : Session) : List Step → Session
  | [] => session
  | step :: steps => (session.serve step).session.after steps

/-- The session with an output stream that takes only so many bytes in total. -/
def cut (session : Session) (room : Nat) (refusal : Refusal) : Session :=
  { session with output := session.output.cut room refusal }

/-- What goes on in a session on a stream that breaks, compared with the same on a stream with room:
what is left behind is cut off, and either nothing is lost and it ends the same, or it fails. -/
structure CutsOff (before : Output) (room : Nat) (refusal : Refusal) (wide narrow : Session)
    (same failed : Prop) : Prop where
  left : narrow = wide.cut room refusal
  ended : ∃ written, wide.output = before.followedBy written ∧
    (same ∧ narrow.output = (before.cut room refusal).followedBy written ∨
      failed ∧ room ≤ wide.output.content.length)

/-- The same for a whole invocation: it makes the same call, and it fails by reporting a fault. -/
structure Dispatched.CutsOff (before : Output) (room : Nat) (refusal : Refusal)
    (wide narrow : Dispatched) : Prop where
  call : narrow.call = wide.call
  session : Session.CutsOff before room refusal wide.session narrow.session
    (narrow.result = wide.result) (∃ fault, narrow.result = .error fault)

end Session

/-- A step truncates the output of a session on a stream that breaks and does not falsify it. -/
structure Step.Truncates (step : Step) (room : Nat) (refusal : Refusal) (wide narrow : Session) :
    Prop where
  /-- The plugin is called in the same way. -/
  call : (narrow.serve step).call = (wide.serve step).call
  /-- The same is left behind, with the output cut off. -/
  left : (narrow.serve step).session = (wide.serve step).session.cut room refusal
  /-- A failure stays a failure. -/
  failure : (wide.serve step).status = 1 → (narrow.serve step).status = 1
  /-- What is reported as a success has been written completely. -/
  success : (narrow.serve step).status = 0 → ∃ written,
    (wide.serve step).session.output.content = wide.output.content ++ written ∧
      (narrow.serve step).session.output.content = narrow.output.content ++ written

/-! ## Programs that stop -/

theorem Outcome.fails_failure (error : Complaint) (causes : List Complaint) :
    (Outcome.failure error causes).Fails := by
  cases error with
  | text message => exact ⟨_, rfl⟩
  | fault fault => exact ⟨_, rfl⟩

theorem Conduct.stopsWhenFull_writing (bytes : Bytes) (outcome : Outcome) :
    (writing bytes outcome).StopsWhenFull Outcome.Fails :=
  ⟨fun text => ⟨_, rfl, Outcome.fails_failure (.text text) []⟩, trivial, trivial⟩

/-- Handlers that only write some bytes, with the answer that lists the supported versions. -/
theorem Step.stopsWhenFull_of_writing {step : Step} {support : Support}
    {bytes : Action → Invocation → Bytes} {outcome : Action → Invocation → Outcome}
    (hplugin : ∀ action invocation, step.plugin.handle action invocation =
      .writing (bytes action invocation) (outcome action invocation))
    (hoffer : step.offer = support.offer) : step.StopsWhenFull where
  handlers action invocation := by
    rw [hplugin]
    exact Conduct.stopsWhenFull_writing _ _
  answer := by
    rw [hoffer]
    exact Conduct.stopsWhenFull_writeAndFlush support.answer

theorem Recorder.stopsWhenFull_conclude (action : Action) (settings : Settings) :
    (conclude action settings).StopsWhenFull Outcome.Fails := by
  unfold conclude
  split
  · trivial
  · cases action with
    | add => exact ⟨fun text => ⟨_, rfl, Outcome.fails_failure _ _⟩, trivial, trivial⟩
    | check => trivial
    | del => trivial

/-- The recorder writes its log before its result. -/
theorem Recorder.stopsWhenFull_handle (action : Action) (invocation : Invocation) :
    (handle action invocation).StopsWhenFull Outcome.Fails := by
  unfold handle
  split
  · trivial
  · next settings _ =>
    split
    · trivial
    · next pairs _ =>
      cases logPath settings pairs with
      | none => exact stopsWhenFull_conclude action settings
      | some path =>
        intro failure
        cases failure with
        | none => exact stopsWhenFull_conclude action settings
        | some text => trivial

/-! ## Parts of a run -/

namespace Session

variable {session : Session} {room : Nat}

theorem plan_cut (session : Session) (room : Nat) (refusal : Refusal) (support : Support)
    (about : String) :
    (session.cut room refusal).plan support about =
      ((session.plan support about).1, (session.plan support about).2.cut room refusal) := by
  have hcapture : Parameters.capture (session.cut room refusal).environment
      (session.cut room refusal).lookups =
        Parameters.capture session.environment session.lookups := rfl
  have hinput : (session.cut room refusal).input = session.input := rfl
  simp only [plan, hcapture, hinput]
  split
  · rfl
  · split
    · rfl
    · split <;> rfl

theorem CutsOff.imp {before : Output} {refusal : Refusal} {wide narrow : Session}
    {same same' failed failed' : Prop} (h : CutsOff before room refusal wide narrow same failed)
    (hsame : same → same') (hfailed : failed → failed') :
    CutsOff before room refusal wide narrow same' failed' := by
  obtain ⟨written, hw, hended⟩ := h.ended
  refine ⟨h.left, written, hw, ?_⟩
  rcases hended with ⟨hs, hout⟩ | ⟨hf, hfull⟩
  · exact .inl ⟨hsame hs, hout⟩
  · exact .inr ⟨hfailed hf, hfull⟩

/-- Where nothing is written, nothing is lost. -/
theorem cutsOff_of_output {before : Output} {refusal : Refusal} {wide narrow : Session}
    {same failed : Prop} (h : wide.output = before) (hcut : narrow = wide.cut room refusal)
    (hsame : same) : CutsOff before room refusal wide narrow same failed := by
  refine ⟨hcut, [], ?_, .inl ⟨hsame, ?_⟩⟩
  · rw [Output.followedBy_nil, h]
  · rw [Output.followedBy_nil, hcut, ← h]
    rfl

/-- A stream with room keeps it. -/
theorem CutsOff.limit {before : Output} {refusal : Refusal} {wide narrow : Session}
    {same failed : Prop} (h : CutsOff before room refusal wide narrow same failed)
    (hlimit : before.limit = none) : wide.output.limit = none := by
  obtain ⟨written, hw, -⟩ := h.ended
  rw [hw]
  exact hlimit

theorem perform_cut {α : Type} {failed : α → Prop} {p : Conduct α} (h : p.StopsWhenFull failed)
    (hlimit : session.output.limit = none) (room : Nat) (refusal : Refusal) :
    CutsOff session.output room refusal (session.perform p).2
      ((session.cut room refusal).perform p).2
      (((session.cut room refusal).perform p).1 = (session.perform p).1)
      (failed ((session.cut room refusal).perform p).1) := by
  have hscene : session.scene.output.limit = none := hlimit
  obtain ⟨hleft, hended⟩ := Conduct.perform_cut h hscene room refusal
  have hcut : (session.cut room refusal).scene = session.scene.cut room refusal := rfl
  refine ⟨?_, p.written session.scene, p.output_of_perform hscene, ?_⟩
  · simp only [perform, hcut, hleft]
    rfl
  · simp only [perform, hcut]
    exact hended

/-- What a program leaves behind on a stream that is full already. -/
theorem perform_cut_of_full {α : Type} {p : Conduct α} (h : p.LeavesFiles)
    (hlimit : session.output.limit = none) (hfull : room ≤ session.output.content.length)
    (refusal : Refusal) :
    (session.perform p).2.cut room refusal = session.cut room refusal ∧
      room ≤ (session.perform p).2.output.content.length := by
  have hscene : session.scene.output.limit = none := hlimit
  obtain ⟨hleft, hlong⟩ := Conduct.perform_cut_of_full h hscene hfull refusal
  refine ⟨?_, hlong⟩
  have houtput : (p.perform session.scene).2.output.cut room refusal =
      session.output.cut room refusal := congrArg Scene.output hleft
  have hfiles : (p.perform session.scene).2.files = session.files := congrArg Scene.files hleft
  simp only [perform, cut, houtput, hfiles]

/-! ## Reports -/

theorem report_cut (hlimit : session.output.limit = none) (room : Nat) (refusal : Refusal)
    (result : Except Fault Unit) :
    CutsOff session.output room refusal (session.report result)
      ((session.cut room refusal).report result) True (∃ fault, result = .error fault) := by
  cases result with
  | ok _ => exact cutsOff_of_output rfl rfl trivial
  | error fault =>
    have hcut := perform_cut
      (Conduct.stopsWhenFull_writeAndFlush (Report.ofFault fault).printed) hlimit room refusal
    exact hcut.imp (fun _ => trivial) (fun _ => ⟨fault, rfl⟩)

/-- On a stream that is full nothing is reported. -/
theorem report_cut_of_full (hlimit : session.output.limit = none)
    (hfull : room ≤ session.output.content.length) (refusal : Refusal)
    (result : Except Fault Unit) :
    (session.report result).cut room refusal = session.cut room refusal ∧
      room ≤ (session.report result).output.content.length := by
  cases result with
  | ok _ => exact ⟨rfl, hfull⟩
  | error fault =>
    exact perform_cut_of_full (Conduct.leavesFiles_writeAndFlush _) hlimit hfull refusal

/-- If something was lost before, the report of what then failed is lost too; otherwise the same is
reported. -/
theorem CutsOff.report {before : Output} {refusal : Refusal} {wide narrow : Session}
    {result other : Except Fault Unit} (hlimit : before.limit = none)
    (h : CutsOff before room refusal wide narrow (other = result)
      (∃ fault, other = .error fault)) :
    CutsOff before room refusal (wide.report result) (narrow.report other) (other = result)
      (∃ fault, other = .error fault) := by
  have hwide := h.limit hlimit
  obtain ⟨rfl, written, hw, hended⟩ := h
  obtain ⟨hleft, more, hmore, hreported⟩ := report_cut hwide room refusal result
  have hall : (wide.report result).output = before.followedBy (written ++ more) := by
    rw [hmore, hw, Output.followedBy_append]
  rcases hended with ⟨rfl, hout⟩ | ⟨hfailed, hfull⟩
  · refine ⟨hleft, written ++ more, hall, ?_⟩
    rcases hreported with ⟨-, hnarrow⟩ | ⟨hfailed, hfull⟩
    · refine .inl ⟨rfl, ?_⟩
      rw [hnarrow, Output.followedBy_append, ← hout]
      rfl
    · exact .inr ⟨hfailed, hfull⟩
  · obtain ⟨hkept, hlong⟩ := report_cut_of_full hwide hfull refusal result
    refine ⟨?_, written ++ more, hall, .inr ⟨hfailed, hlong⟩⟩
    rw [(report_cut hwide room refusal other).left, hkept,
      (report_cut_of_full hwide hfull refusal other).1]

/-! ## One run -/

section Run

variable {plugin : Plugin} {offer : Offer}
  (hplugin : ∀ action invocation,
    (plugin.handle action invocation).StopsWhenFull Outcome.Fails)
  (hoffer : offer.encode.StopsWhenFull (· ≠ none))
  (hlimit : session.output.limit = none) (room : Nat) (refusal : Refusal) (about : String)

include hplugin hoffer hlimit

theorem carryOut_cut (plan : Plan) :
    Dispatched.CutsOff session.output room refusal (session.carryOut plugin offer about plan)
      ((session.cut room refusal).carryOut plugin offer about plan) := by
  cases plan with
  | about => exact ⟨rfl, cutsOff_of_output rfl rfl rfl⟩
  | answer =>
    refine ⟨rfl, (perform_cut hoffer hlimit room refusal).imp (congrArg answerResult) ?_⟩
    intro hfailed
    obtain ⟨text, htext⟩ := Option.ne_none_iff_exists'.mp hfailed
    exact ⟨_, congrArg answerResult htext⟩
  | call action invocation =>
    have hcut := perform_cut (hplugin action invocation) hlimit room refusal
    exact ⟨rfl, hcut.imp (congrArg Outcome.result) id⟩

theorem dispatch_cut :
    Dispatched.CutsOff session.output room refusal (session.dispatch plugin offer about)
      ((session.cut room refusal).dispatch plugin offer about) := by
  have houtput : (session.plan offer.support about).2.output = session.output :=
    congrArg Scene.output (scene_plan session offer.support about)
  have hplanned : (session.plan offer.support about).2.output.limit = none := by
    rw [houtput]
    exact hlimit
  cases hp : (session.plan offer.support about).1 with
  | error fault =>
    have hcut : ((session.cut room refusal).plan offer.support about).1 = .error fault := by
      rw [plan_cut, hp]
    rw [dispatch_of_error hp, dispatch_of_error hcut, plan_cut]
    exact ⟨rfl, cutsOff_of_output houtput rfl rfl⟩
  | ok plan =>
    have hcut : ((session.cut room refusal).plan offer.support about).1 = .ok plan := by
      rw [plan_cut, hp]
    rw [dispatch_of_plan hp, dispatch_of_plan hcut, plan_cut, ← houtput]
    exact carryOut_cut hplugin hoffer hplanned room refusal about plan

/-- A run on a stream that breaks makes the same call, leaves the same behind with the output cut
off, and has the same result unless something was lost; then it has failed. -/
theorem run_cut :
    Dispatched.CutsOff session.output room refusal (session.run plugin offer about)
      ((session.cut room refusal).run plugin offer about) := by
  obtain ⟨hcall, hcut⟩ := dispatch_cut hplugin hoffer hlimit room refusal about
  exact ⟨hcall, hcut.report hlimit⟩

end Run

/-! ## Any number of runs -/

theorem serve_cut {step : Step} (hstep : step.StopsWhenFull) (hlimit : session.output.limit = none)
    (room : Nat) (refusal : Refusal) :
    Dispatched.CutsOff session.output room refusal (session.serve step)
      ((session.cut room refusal).serve step) := by
  have hstart : { session with environment := step.environment }.output.limit = none := hlimit
  exact run_cut hstep.handlers hstep.answer hstart room refusal step.about

/-- After any number of runs a stream that breaks leaves the session with its output cut off. -/
theorem after_cut {steps : List Step} (hsteps : ∀ step ∈ steps, step.StopsWhenFull)
    (hlimit : session.output.limit = none) (room : Nat) (refusal : Refusal) :
    (session.cut room refusal).after steps = (session.after steps).cut room refusal ∧
      (session.after steps).output.limit = none := by
  induction steps generalizing session with
  | nil => exact ⟨rfl, hlimit⟩
  | cons step steps ih =>
    obtain ⟨-, hcut⟩ := serve_cut (hsteps step List.mem_cons_self) hlimit room refusal
    have hrest : ∀ step ∈ steps, step.StopsWhenFull :=
      fun step hm => hsteps step (List.mem_cons_of_mem _ hm)
    rw [after, after, hcut.left]
    exact ih hrest (hcut.limit hlimit)

theorem truncates_of_stopsWhenFull {step : Step} (hstep : step.StopsWhenFull)
    (hlimit : session.output.limit = none) (room : Nat) (refusal : Refusal) :
    step.Truncates room refusal session (session.cut room refusal) := by
  obtain ⟨hcall, hleft, written, hw, hended⟩ := serve_cut hstep hlimit room refusal
  refine ⟨hcall, hleft, fun hfailure => ?_, fun hsuccess => ⟨written, ?_, ?_⟩⟩
  · rw [Dispatched.status_eq_one_iff] at hfailure ⊢
    rcases hended with ⟨hsame, -⟩ | ⟨hfailed, -⟩
    · rwa [hsame]
    · exact hfailed
  · rw [hw, Output.content_followedBy]
  · rw [Dispatched.status_eq_zero_iff] at hsuccess
    rcases hended with ⟨-, hout⟩ | ⟨⟨fault, hfault⟩, -⟩
    · rw [hout, Output.content_followedBy]
      rfl
    · rw [hsuccess] at hfault
      cases hfault

/-- A session on a stream that takes only so many bytes ends with the first bytes of what it would
have written.  Every step makes the same call and leaves the same behind as on a stream with room; it
fails if it fails there, and if it succeeds it has written everything. -/
theorem breaking_truncates {session : Session} (h : session.output.limit = none)
    {steps : List Step} (hsteps : ∀ step ∈ steps, step.StopsWhenFull) (room : Nat)
    (refusal : Refusal) :
    ((session.cut room refusal).after steps).output.content =
        (session.after steps).output.content.take room ∧
      ∀ before step later, steps = before ++ step :: later →
        step.Truncates room refusal (session.after before)
          ((session.cut room refusal).after before) := by
  constructor
  · rw [(after_cut hsteps h room refusal).1]
    rfl
  · rintro before step later rfl
    have hbefore : ∀ step ∈ before, step.StopsWhenFull :=
      fun step hm => hsteps step (List.mem_append_left _ hm)
    have hstep : step.StopsWhenFull :=
      hsteps step (List.mem_append_right _ List.mem_cons_self)
    obtain ⟨hcut, hlimit⟩ := after_cut hbefore h room refusal
    rw [hcut]
    exact truncates_of_stopsWhenFull hstep hlimit room refusal

/-- A session whose input holds one configuration. -/
def configured : Session where
  environment := .ofList []
  input := [.bytes (Text.Utf8.ofString "\x7b\"name\":\"n\",\"cniVersion\":\"0.4.0\"\x7d")]

/-- An attachment whose handler breaks off after it has written a line. -/
def interrupted : Step where
  environment := .ofList
    [("CNI_COMMAND", Text.Utf8.ofString "ADD"), ("CNI_CONTAINERID", Text.Utf8.ofString "c"),
     ("CNI_NETNS", Text.Utf8.ofString "n"), ("CNI_IFNAME", Text.Utf8.ofString "e"),
     ("CNI_PATH", Text.Utf8.ofString "/bin")]
  plugin := ⟨fun _ _ => .writing [0x7B, 0x7D, 0x0A] (.crash none)⟩
  offer := Support.offer ⟨["0.4.0"]⟩
  about := ""

/-- A question for the supported versions, of the same plugin. -/
def asking : Step :=
  { interrupted with environment := .ofList [("CNI_COMMAND", Text.Utf8.ofString "VERSION")] }

/-- The stream breaks in the report of the attachment, and the answer that follows is lost. -/
theorem interrupted_truncates :
    configured.output.limit = none ∧ (∀ step ∈ [interrupted, asking], step.StopsWhenFull) ∧
      ((configured.cut 5 .takesNothing).after [interrupted, asking]).output.content =
        [0x7B, 0x7D, 0x0A, 0x7B, 0x0A] ∧
      ((configured.cut 5 .takesNothing).serve interrupted).status = 1 := by
  have hstops : ∀ step ∈ [interrupted, asking], step.StopsWhenFull := by
    intro step hm
    rcases List.mem_cons.mp hm with rfl | hm
    · exact Step.stopsWhenFull_of_writing (fun _ _ => rfl) rfl
    · rw [List.mem_singleton.mp hm]
      exact Step.stopsWhenFull_of_writing (fun _ _ => rfl) rfl
  have hlimit : configured.output.limit = none := rfl
  obtain ⟨hcontent, hsteps⟩ := breaking_truncates hlimit hstops 5 .takesNothing
  refine ⟨hlimit, hstops, ?_, (hsteps [] interrupted [asking] rfl).failure ?_⟩
  · rw [hcontent]
    decide +kernel
  · decide +kernel

end Session
end CniPlugin
