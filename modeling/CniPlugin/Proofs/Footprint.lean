import CniPlugin.Proofs.RunReports
import CniPlugin.Proofs.HandlerGate
/-!
# The footprint of a dispatch

What a dispatch reads and writes, and what it leaves alone, on every path that it can take: which
variables it looks up, when it reads the input, what it writes to the diagnostics, and who writes to
the output stream.  What it leaves alone has no part in anything that it does either.

Result: `dispatch_footprint` (the footprint, and that the answer to VERSION is a matter of the
supported versions and the output stream only).
-/

namespace CniPlugin

/-! ## Definitions -/

/-- The parameters that are looked up: all of the table, or those up to the first that is no
text. -/
inductive Environment.LooksUp (environment : Environment) (lookups : List String) :
    List Parameter → Prop
  | all {parameters : Parameters} : environment.Gives lookups parameters →
      LooksUp environment lookups Parameter.all
  | upTo {p : Parameter} {before after : List Parameter} : environment.FirstNotText lookups p →
      Parameter.all = before ++ p :: after → LooksUp environment lookups (before ++ [p])

namespace Session

/-- There is no command, but an about text. -/
def AsksAbout (session : Session) (about : String) : Prop :=
  ∃ parameters, session.environment.Gives session.lookups parameters ∧
    parameters .command = "" ∧ about ≠ ""

/-- The variables ask for an operation of which no parameter is missing. -/
def AsksOperation (session : Session) : Prop :=
  ∃ parameters, session.environment.Gives session.lookups parameters ∧
    parameters .command ∈ ["ADD", "CHECK", "DEL"] ∧ parameters.absent = []

/-- The same, but with other input left. -/
def Dispatched.withInput (dispatched : Dispatched) (input : Input) : Dispatched :=
  { dispatched with session := { dispatched.session with input } }

/-- The same, but with other diagnostics. -/
def Dispatched.withDiagnostics (dispatched : Dispatched) (diagnostics : Output) : Dispatched :=
  { dispatched with session := { dispatched.session with diagnostics } }

/-- What a dispatch reads and writes. -/
structure Footprint (session : Session) (plugin : Plugin) (offer : Offer) (about : String) :
    Prop where
  /-- The variables are looked up in the order of the table, each once. -/
  lookups : ∃ names, session.environment.LooksUp session.lookups names ∧
    (session.dispatch plugin offer about).session.lookups =
      session.lookups ++ names.map (·.variableName)
  /-- An operation reads the input to its end. -/
  read : session.AsksOperation →
    (session.dispatch plugin offer about).session.input = session.input.readToEnd.2
  /-- Otherwise the input is left alone, and with any other input the dispatch does the same. -/
  unread : ¬ session.AsksOperation → ∀ input,
    { session with input }.dispatch plugin offer about =
      (session.dispatch plugin offer about).withInput input
  /-- Without a command the dispatch succeeds and writes a first part of the line with the about
  text … -/
  told : session.AsksAbout about → (session.dispatch plugin offer about).result = .ok () ∧
    ∃ count, (session.dispatch plugin offer about).session.diagnostics =
      session.diagnostics.followedBy ((Text.Utf8.ofString (about ++ "\n")).take count)
  /-- … and all of it if the diagnostics take it. -/
  toldAll : session.AsksAbout about →
    (session.diagnostics.write (Text.Utf8.ofString (about ++ "\n"))).1 = none →
    (session.dispatch plugin offer about).session.diagnostics =
      session.diagnostics.followedBy (Text.Utf8.ofString (about ++ "\n"))
  /-- Nothing else is written to the diagnostics. -/
  silent : ¬ session.AsksAbout about →
    (session.dispatch plugin offer about).session.diagnostics = session.diagnostics
  /-- With any other diagnostics, be they broken, the dispatch does the same but for them. -/
  undisturbed : ∀ diagnostics, ∃ left,
    { session with diagnostics }.dispatch plugin offer about =
      (session.dispatch plugin offer about).withDiagnostics left
  /-- What is written otherwise is written by the handler that is called … -/
  called : ∀ action invocation,
    (session.dispatch plugin offer about).call = some (action, invocation) →
    (session.dispatch plugin offer about).session.scene =
      ((plugin.handle action invocation).perform session.scene).2
  /-- … or is the answer to VERSION … -/
  answered : session.AsksVersions →
    (session.dispatch plugin offer about).session.scene =
      (offer.encode.perform session.scene).2
  /-- … and without either there is nothing. -/
  unwritten : (session.dispatch plugin offer about).call = none → ¬ session.AsksVersions →
    (session.dispatch plugin offer about).session.scene = session.scene

end Session

/-! ## Completing the parameters -/

/-- The table is what comes before a parameter, the parameter, and the rest. -/
theorem Parameter.all_eq (p : Parameter) :
    ∃ after, Parameter.all = Parameter.all.takeWhile (· ≠ p) ++ p :: after := by
  cases p <;> exact ⟨_, rfl⟩

theorem Parameters.absent_of_command {parameters : Parameters} {command : Command}
    (h : parameters.command = .ok command) : parameters.absent = [] := by
  cases ha : parameters.absent with
  | nil => rfl
  | cons p ps =>
    rw [Parameters.command_of_absent (by rw [ha]; exact List.cons_ne_nil p ps)] at h
    cases h

/-- Input is awaited by exactly the operations of which no parameter is missing. -/
theorem Parameters.awaitsInput_iff {parameters : Parameters} :
    parameters.awaitsInput = true ↔
      parameters .command ∈ ["ADD", "CHECK", "DEL"] ∧ parameters.absent = [] := by
  constructor
  · intro h
    unfold Parameters.awaitsInput at h
    split at h
    · next action hc =>
      refine ⟨?_, Parameters.absent_of_command hc⟩
      rw [Session.command_name_of_ok hc]
      cases action <;> decide
    · cases h
  · rintro ⟨hm, ha⟩
    obtain ⟨action, hname⟩ : ∃ action : Action, parameters .command = action.name := by
      simp only [List.mem_cons, List.not_mem_nil, or_false] at hm
      rcases hm with hm | hm | hm
      · exact ⟨.add, hm⟩
      · exact ⟨.check, hm⟩
      · exact ⟨.del, hm⟩
    have hc : parameters.command = .ok (.perform action) :=
      Parameters.command_of_complete ha hname
    rw [Parameters.awaitsInput, hc]

theorem Parameters.invocation_of_awaitsInput {parameters : Parameters}
    (h : parameters.awaitsInput = true) (input : Input) :
    (parameters.invocation input).2 = input.readToEnd.2 := by
  unfold Parameters.awaitsInput at h
  split at h
  · next action hc =>
    rw [Parameters.invocation, hc]
    rcases input.readToEnd with ⟨_ | _, left⟩ <;> rfl
  · cases h

/-! ## Planning -/

namespace Session

theorem plan_eq_of_firstNotText {session : Session} {p : Parameter}
    (h : session.environment.FirstNotText session.lookups p) (support : Support)
    (about : String) :
    session.plan support about = (.error (Parameters.notText p), { session with
      lookups := session.lookups ++
        (Parameter.all.takeWhile (· ≠ p) ++ [p]).map (·.variableName) }) := by
  rw [plan, Parameters.capture_of_firstNotText h]

/-- Planning looks up all variables if they are text, and has read the input if it was awaited. -/
theorem session_plan_of_given {session : Session} {parameters : Parameters}
    (h : session.environment.Gives session.lookups parameters) (support : Support)
    (about : String) :
    (session.plan support about).2 = { session with
      lookups := session.lookups ++ Parameter.all.map (·.variableName)
      input := if parameters.awaitsInput then session.input.readToEnd.2 else session.input } := by
  have hleft : (parameters.invocation session.input).2 =
      if parameters.awaitsInput then session.input.readToEnd.2 else session.input := by
    split
    · next hw => exact Parameters.invocation_of_awaitsInput hw _
    · next hw =>
      rw [Parameters.invocation_of_not_awaitsInput (Bool.not_eq_true _ ▸ hw) _ []]
  rw [plan, Parameters.capture_of_gives h, ← hleft]
  dsimp only
  split
  · next hc =>
    -- Without a command a parameter is missing, so that no input is awaited.
    have hw : ¬ parameters.awaitsInput = true := by
      rw [Parameters.awaitsInput_iff, hc.1]
      exact fun hn => absurd hn.1 (by decide)
    rw [hleft, if_neg hw]
  · split <;> next hi => rw [hi]

theorem not_awaitsInput {session : Session} (h : ¬ session.AsksOperation)
    {parameters : Parameters} (given : session.environment.Gives session.lookups parameters) :
    ¬ parameters.awaitsInput = true :=
  fun hw => h ⟨parameters, given, Parameters.awaitsInput_iff.mp hw⟩

/-- Unless an operation awaits it, the input has no part in the plan. -/
theorem plan_with_input {session : Session} (h : ¬ session.AsksOperation) (input : Input)
    (support : Support) (about : String) :
    { session with input }.plan support about =
      ((session.plan support about).1, { (session.plan support about).2 with input }) := by
  rcases Parameters.capture_spec session.environment session.lookups with
    ⟨parameters, -, given⟩ | ⟨p, -, hp⟩
  · have hw := not_awaitsInput h given
    have given' : ({ session with input } : Session).environment.Gives session.lookups
        parameters := given
    refine Prod.ext ?_ ?_
    · rw [plan_of_given given, plan_of_given given',
        Parameters.invocation_of_not_awaitsInput (Bool.not_eq_true _ ▸ hw) input session.input]
    · rw [session_plan_of_given given, session_plan_of_given given', if_neg hw]
  · have hp' : ({ session with input } : Session).environment.FirstNotText session.lookups p := hp
    rw [plan_eq_of_firstNotText hp, plan_eq_of_firstNotText hp']

/-- The diagnostics have no part in the plan. -/
theorem plan_with_diagnostics (session : Session) (diagnostics : Output) (support : Support)
    (about : String) :
    { session with diagnostics }.plan support about =
      ((session.plan support about).1, { (session.plan support about).2 with diagnostics }) := by
  unfold plan
  dsimp only
  split
  · rfl
  · split
    · rfl
    · split <;> rfl

theorem diagnostics_plan (session : Session) (support : Support) (about : String) :
    (session.plan support about).2.diagnostics = session.diagnostics := by
  have h := plan_with_diagnostics session session.diagnostics support about
  rw [h]

theorem invocation_plan_ne_about (invocation : Invocation) (support : Support) :
    invocation.plan support ≠ .ok .about := by
  intro h
  unfold Invocation.plan at h
  repeat' split at h
  all_goals cases h

/-- The about text is planned exactly if there is no command. -/
theorem plan_eq_about_iff (session : Session) (support : Support) (about : String) :
    (session.plan support about).1 = .ok .about ↔ session.AsksAbout about := by
  constructor
  · intro h
    rcases Parameters.capture_spec session.environment session.lookups with
      ⟨parameters, -, given⟩ | ⟨p, -, hp⟩
    · rw [plan_of_given given] at h
      split at h
      · next hc => exact ⟨parameters, given, hc⟩
      · split at h
        · cases h
        · exact absurd h (invocation_plan_ne_about _ _)
    · rw [plan_of_firstNotText hp] at h
      cases h
  · rintro ⟨parameters, given, hc⟩
    rw [plan_of_given given, if_pos hc]

/-! ## Carrying out -/

section
variable (session : Session) (plugin : Plugin) (offer : Offer) (about : String)

theorem dispatch_eq : session.dispatch plugin offer about =
    match (session.plan offer.support about).1 with
    | .error fault => ⟨.error fault, (session.plan offer.support about).2, none⟩
    | .ok plan => (session.plan offer.support about).2.carryOut plugin offer about plan := by
  cases hp : (session.plan offer.support about).1 with
  | error fault => exact dispatch_of_error hp plugin
  | ok plan => exact dispatch_of_plan hp plugin

theorem carryOut_with_input (input : Input) (plan : Plan) :
    { session with input }.carryOut plugin offer about plan =
      (session.carryOut plugin offer about plan).withInput input := by
  cases plan <;> rfl

theorem carryOut_with_diagnostics (diagnostics : Output) (plan : Plan) :
    ∃ left, { session with diagnostics }.carryOut plugin offer about plan =
      (session.carryOut plugin offer about plan).withDiagnostics left := by
  cases plan <;> exact ⟨_, rfl⟩

/-- A plan is carried out without another lookup or read. -/
theorem dispatch_after_plan :
    (session.dispatch plugin offer about).session.lookups =
        (session.plan offer.support about).2.lookups ∧
      (session.dispatch plugin offer about).session.input =
        (session.plan offer.support about).2.input := by
  rw [dispatch_eq]
  split
  · exact ⟨rfl, rfl⟩
  · next plan _ => cases plan <;> exact ⟨rfl, rfl⟩

theorem dispatch_with_input (h : ¬ session.AsksOperation) (input : Input) :
    { session with input }.dispatch plugin offer about =
      (session.dispatch plugin offer about).withInput input := by
  rw [dispatch_eq, dispatch_eq session, plan_with_input h]
  dsimp only
  split
  · rfl
  · exact carryOut_with_input _ plugin offer about input _

theorem dispatch_with_diagnostics (diagnostics : Output) :
    ∃ left, { session with diagnostics }.dispatch plugin offer about =
      (session.dispatch plugin offer about).withDiagnostics left := by
  rw [dispatch_eq, dispatch_eq session, plan_with_diagnostics]
  dsimp only
  split
  · exact ⟨diagnostics, rfl⟩
  · exact carryOut_with_diagnostics _ plugin offer about diagnostics _

/-! ## Who writes -/

/-- The line with the about text is written to the diagnostics, whether or not they take it. -/
theorem dispatch_of_asksAbout (h : session.AsksAbout about) :
    (session.dispatch plugin offer about).result = .ok () ∧
      (session.dispatch plugin offer about).session.diagnostics =
        (session.diagnostics.write (Text.Utf8.ofString (about ++ "\n"))).2 := by
  rw [dispatch_of_plan ((plan_eq_about_iff session offer.support about).mpr h),
    ← diagnostics_plan session offer.support about]
  exact ⟨rfl, rfl⟩

theorem diagnostics_of_not_asksAbout (h : ¬ session.AsksAbout about) :
    (session.dispatch plugin offer about).session.diagnostics = session.diagnostics := by
  rw [← plan_eq_about_iff session offer.support] at h
  rw [dispatch_eq, ← diagnostics_plan session offer.support about]
  split
  · rfl
  · next plan hp =>
    cases plan with
    | about => exact absurd hp h
    | answer => rfl
    | call action invocation => rfl

/-- The answer to VERSION is all that is done for it. -/
theorem dispatch_of_asksVersions (h : session.AsksVersions) :
    (session.dispatch plugin offer about).result =
        answerResult (offer.encode.perform session.scene).1 ∧
      (session.dispatch plugin offer about).session.scene =
        (offer.encode.perform session.scene).2 :=
  (dispatch_of_answer ((plan_eq_answer_iff session offer.support about).mpr h) plugin).2

theorem scene_of_no_writer (hc : (session.dispatch plugin offer about).call = none)
    (hv : ¬ session.AsksVersions) :
    (session.dispatch plugin offer about).session.scene = session.scene := by
  rw [AsksVersions, ← plan_eq_answer_iff session offer.support about] at hv
  have kept := scene_plan session offer.support about
  rw [dispatch_eq] at hc ⊢
  split
  · exact kept
  · next plan hp =>
    cases plan with
    | about => exact kept
    | answer => exact absurd hp hv
    | call action invocation =>
      rw [hp] at hc
      cases hc

end

end Session

/-- A program that appends to no file does the same whatever the files are. -/
theorem Conduct.perform_with_files {α : Type} {p : Conduct α} (h : p.LeavesFiles) (scene : Scene)
    (files : Files) :
    p.perform { scene with files } = ((p.perform scene).1, { (p.perform scene).2 with files }) := by
  induction p generalizing scene with
  | done result => rfl
  | write bytes next ih =>
    exact ih _ (h _) { scene with output := (scene.output.write bytes).2 }
  | flush next ih => exact ih _ (h _) scene
  | append path bytes next ih => exact h.elim

theorem Output.write_of_taken {out : Output} {bytes : Bytes} (h : (out.write bytes).1 = none) :
    (out.write bytes).2 = out.followedBy bytes := by
  unfold Output.write at h ⊢
  split at h
  · cases h
  · next hfits =>
    rw [if_neg hfits, List.take_of_length_le (Nat.le_of_not_lt hfits)]
    rfl

/-! ## The footprint -/

namespace Session

theorem lookups_of_dispatch (session : Session) (plugin : Plugin) (offer : Offer)
    (about : String) :
    ∃ names, session.environment.LooksUp session.lookups names ∧
      (session.dispatch plugin offer about).session.lookups =
        session.lookups ++ names.map (·.variableName) := by
  rw [(dispatch_after_plan session plugin offer about).1]
  rcases Parameters.capture_spec session.environment session.lookups with
    ⟨parameters, -, given⟩ | ⟨p, -, hp⟩
  · exact ⟨Parameter.all, .all given, by rw [session_plan_of_given given]⟩
  · obtain ⟨after, hall⟩ := Parameter.all_eq p
    exact ⟨_, .upTo hp hall, by rw [plan_eq_of_firstNotText hp]⟩

/-- A dispatch has its footprint.  So when the variables are text and ask for VERSION, its result
and its output depend on the supported versions and the output stream alone: not on the other
variables, the input, the diagnostics, the plugin or the about text, and on the files only if the
offer has its own way to write the answer. -/
theorem dispatch_footprint (session : Session) (plugin : Plugin) (offer : Offer)
    (about : String) :
    session.Footprint plugin offer about ∧
      ∀ (other : Session) (plugin' : Plugin) (about' : String),
        session.AsksVersions → other.AsksVersions → other.output = session.output →
        (offer = offer.support.offer ∨ other.files = session.files) →
        (other.dispatch plugin' offer about').result =
            (session.dispatch plugin offer about).result ∧
          (other.dispatch plugin' offer about').session.output =
            (session.dispatch plugin offer about).session.output := by
  constructor
  · exact
      { lookups := lookups_of_dispatch session plugin offer about
        read := by
          rintro ⟨parameters, given, asks⟩
          rw [(dispatch_after_plan session plugin offer about).2, session_plan_of_given given,
            if_pos (Parameters.awaitsInput_iff.mpr asks)]
        unread := dispatch_with_input session plugin offer about
        told := by
          intro h
          obtain ⟨hresult, hwritten⟩ := dispatch_of_asksAbout session plugin offer about h
          obtain ⟨count, htaken⟩ :=
            session.diagnostics.write_eq_take (Text.Utf8.ofString (about ++ "\n"))
          exact ⟨hresult, count, hwritten.trans htaken⟩
        toldAll := by
          intro h htaken
          rw [(dispatch_of_asksAbout session plugin offer about h).2]
          exact Output.write_of_taken htaken
        silent := diagnostics_of_not_asksAbout session plugin offer about
        undisturbed := dispatch_with_diagnostics session plugin offer about
        called := fun action invocation h => (dispatch_of_called h).2
        answered := fun h => (dispatch_of_asksVersions session plugin offer about h).2
        unwritten := scene_of_no_writer session plugin offer about }
  · intro other plugin' about' asks asks' hout hsame
    obtain ⟨hresult, hscene⟩ := dispatch_of_asksVersions session plugin offer about asks
    obtain ⟨hresult', hscene'⟩ := dispatch_of_asksVersions other plugin' offer about' asks'
    have hsame : (offer.encode.perform other.scene).1 = (offer.encode.perform session.scene).1 ∧
        (offer.encode.perform other.scene).2.output =
          (offer.encode.perform session.scene).2.output := by
      have hother : other.scene = { session.scene with files := other.files } := by
        rw [scene, hout]
        rfl
      rcases hsame with hdefault | hfiles
      · have hleaves : offer.encode.LeavesFiles := by
          rw [hdefault]
          exact Conduct.leavesFiles_writeAndFlush _
        rw [hother, Conduct.perform_with_files hleaves]
        exact ⟨rfl, rfl⟩
      · rw [hother, hfiles]
        exact ⟨rfl, rfl⟩
    rw [hresult, hresult', output_of_scene hscene, output_of_scene hscene', hsame.1, hsame.2]
    exact ⟨rfl, rfl⟩

/-- A question for the versions with an input that breaks off. -/
def inquiring : Session where
  environment := .ofList [("CNI_COMMAND", Text.Utf8.ofString "VERSION")]
  input := [.failed "gone"]

/-- The same question where every other variable holds the name that was looked up before it, and
the diagnostics take nothing. -/
def inquiringElsewhere : Session where
  environment := fun lookups name =>
    some (Text.Utf8.ofString (if name = "CNI_COMMAND" then "VERSION" else lookups.getLastD ""))
  diagnostics := { limit := some 0 }

theorem inquiring_asksVersions : inquiring.AsksVersions := by
  refine ⟨Parameters.empty.set .command "VERSION", fun p => ?_, rfl⟩
  cases p <;> decide

theorem inquiringElsewhere_asksVersions : inquiringElsewhere.AsksVersions := by
  refine ⟨(((((Parameters.empty.set .command "VERSION").set .containerId "CNI_COMMAND").set
    .netns "CNI_CONTAINERID").set .ifName "CNI_NETNS").set .args "CNI_IFNAME").set
    .path "CNI_ARGS", fun p => ?_, rfl⟩
  cases p <;> decide

/-- Both questions get the same answer. -/
theorem inquiring_answered_alike :
    inquiring.AsksVersions ∧ inquiringElsewhere.AsksVersions ∧
      ∀ plugin, (inquiringElsewhere.dispatch plugin (Support.offer ⟨["0.4.0"]⟩) "noop").result =
          (inquiring.dispatch breakingOff (Support.offer ⟨["0.4.0"]⟩) "").result ∧
        (inquiringElsewhere.dispatch plugin (Support.offer ⟨["0.4.0"]⟩) "noop").session.output =
          (inquiring.dispatch breakingOff (Support.offer ⟨["0.4.0"]⟩) "").session.output := by
  refine ⟨inquiring_asksVersions, inquiringElsewhere_asksVersions, fun plugin => ?_⟩
  have alike := (dispatch_footprint inquiring breakingOff (Support.offer ⟨["0.4.0"]⟩) "").2
  exact alike inquiringElsewhere plugin "noop" inquiring_asksVersions
    inquiringElsewhere_asksVersions rfl (.inl rfl)

end Session
end CniPlugin
