import CniPlugin.Proofs.FailedRuns
import CniPlugin.Proofs.ConfiguredSettings
import CniPlugin.Proofs.VersionAnswer
/-!
# The recorder leaves at most one document

The runtime reads what a plugin leaves on its output stream as one document.  The recorder writes
only as its last step, so on a stream that takes and flushes everything a run of it leaves nothing,
or one line, or one report of the fault with which the run failed.  What each of them says is
determined by the variables, the configuration and the supported versions.

Results:
1. `handle_failsOrWrites`: a handler of the recorder fails and writes nothing, or writes its result.
2. `results_of_concludes`: that result is the one that the configuration has.
3. `written_of_fails`, `concludes_of_performed`: what has been written when a handler fails, and
   when an operation has been performed.
4. `run_leaves_one`: what a run of the recorder adds in each case.
-/

namespace CniPlugin

/-! ## Definitions -/

/-- The bytes are the value on one line, and are read back as the value if its numbers are
integers. -/
structure Json.OneLine (v : Json) (bytes : Bytes) : Prop where
  written : bytes = v.compact ++ [0x0A]
  line : 0x0A ∉ v.compact
  readBack : v.Integral → Json.parse bytes = .ok v

/-- What a successful ADD leaves for its configuration. -/
inductive NetworkConfig.Results (body : Bytes) : Bytes → Prop
  /-- The result that the configuration has. -/
  | configured {document : NetworkConfig} {v : Json} {bytes : Bytes} :
      validate body = .ok document → document.result? = some v → v.OneLine bytes →
      Results body bytes
  /-- An object with the version that it declares, if it has no result. -/
  | usual {document : NetworkConfig} {declared : String} {bytes : Bytes} :
      validate body = .ok document → document.result? = none →
      declaredVersion body = .ok declared →
      (Json.object [("cniVersion", .text declared)]).OneLine bytes → Results body bytes

/-- On the scene the program fails and writes nothing, or it succeeds and writes what it should. -/
def Conduct.FailsOrWrites (p : Conduct Outcome) (scene : Scene) (wanted : Bytes → Prop) : Prop :=
  (p.perform scene).1.Fails ∧ p.written scene = [] ∨
    (p.perform scene).1 = .success ∧ wanted (p.written scene)

/-- What the recorder writes for an operation: its result for ADD, and nothing otherwise. -/
def Recorder.Concludes (action : Action) (config : Bytes) (bytes : Bytes) : Prop :=
  ∃ settings, Settings.parse config = .ok settings ∧
    bytes = if action = .add then resultLine settings else []

namespace Session

/-- The variables ask for an operation. -/
def AsksFor (session : Session) (action : Action) : Prop :=
  ∃ parameters, session.environment.Gives session.lookups parameters ∧
    parameters .command = action.name

/-- What a run of the recorder adds to its output stream, in each case. -/
structure LeavesOne (session : Session) (support : Support) (about : String)
    (ran : Dispatched) (added : Bytes) : Prop where
  /-- A failed run adds the report of its fault. -/
  failed : ran.status = 1 → ∃ fault, ran.result = .error fault ∧
    added = (Report.ofFault fault).printed ∧ Fault.read added = .ok fault
  /-- Without a command and with an about text it adds nothing. -/
  told : session.AsksAbout about → ran.status = 0 ∧ added = []
  /-- For VERSION it adds one line, which is read as the list of supported versions. -/
  answered : session.AsksVersions → ran.status = 0 ∧
    (∃ line, added = line ++ [0x0A] ∧ 0x0A ∉ line) ∧
    (support.versions ≠ [] → Support.decode added = .ok support)
  /-- For ADD it adds the result for the configuration that has arrived. -/
  attached : session.AsksFor .add → ran.status = 0 →
    ∃ body left, session.input.Delivers body left ∧ NetworkConfig.Results body added
  /-- For CHECK and DEL it adds nothing. -/
  released : session.AsksFor .check ∨ session.AsksFor .del → ran.status = 0 → added = []
  /-- There is no other case. -/
  complete : ran.status = 1 ∨ ran.status = 0 ∧
    (session.AsksAbout about ∨ session.AsksVersions ∨ ∃ action, session.AsksFor action)

end Session

/-! ## The handlers of the recorder -/

namespace Recorder

variable {scene : Scene} {wanted : Bytes → Prop}

theorem failsOrWrites_failure (error : Complaint) (causes : List Complaint) :
    (Conduct.done (.failure error causes)).FailsOrWrites scene wanted :=
  .inl ⟨Outcome.fails_failure error causes, rfl⟩

/-- With room, the recorder ends as its settings say. -/
theorem conclude_failsOrWrites (h : scene.output.limit = none) (action : Action)
    (settings : Settings) :
    (conclude action settings).FailsOrWrites scene
      (· = if action = .add then resultLine settings else []) := by
  unfold conclude
  split
  · next outcome houtcome =>
    unfold reportedError at houtcome
    obtain ⟨message, -, rfl⟩ := Option.map_eq_some_iff.mp houtcome
    split
    · exact failsOrWrites_failure _ _
    · exact failsOrWrites_failure _ _
  · cases action with
    | add =>
      refine .inr ⟨?_, ?_⟩
      · rw [Conduct.perform_write h]
        rfl
      · rw [Conduct.written_write h]
        exact List.append_nil _
    | check => exact .inr ⟨rfl, rfl⟩
    | del => exact .inr ⟨rfl, rfl⟩

/-- An append writes nothing to the stream, whether or not it fails. -/
theorem failsOrWrites_append (path : String) (bytes : Bytes)
    {next : Option String → Conduct Outcome}
    (h : ∀ failure files, (next failure).FailsOrWrites { scene with files } wanted) :
    (Conduct.append path bytes next).FailsOrWrites scene wanted :=
  h _ _

/-- The recorder logs the invocation before it goes on, and fails if it cannot. -/
theorem record_failsOrWrites (path : Option String) (invocation : Invocation)
    {rest : Conduct Outcome} (hrest : ∀ files, rest.FailsOrWrites { scene with files } wanted) :
    (record path invocation rest).FailsOrWrites scene wanted := by
  cases path with
  | none => exact hrest scene.files
  | some path =>
    refine failsOrWrites_append path _ fun failure files => ?_
    cases failure with
    | some text => exact failsOrWrites_failure _ _
    | none => exact hrest files

/-- A handler of the recorder fails and writes nothing, or writes its result. -/
theorem handle_failsOrWrites (h : scene.output.limit = none) (action : Action)
    (invocation : Invocation) :
    (handle action invocation).FailsOrWrites scene (Concludes action invocation.config) := by
  unfold handle
  split
  · exact failsOrWrites_failure _ _
  · next settings hsettings =>
    split
    · exact failsOrWrites_failure _ _
    · refine record_failsOrWrites _ invocation fun files => ?_
      have hroom : ({ scene with files } : Scene).output.limit = none := h
      rcases conclude_failsOrWrites hroom action settings with hfails | ⟨hsuccess, hwritten⟩
      · exact .inl hfails
      · exact .inr ⟨hsuccess, settings, hsettings, hwritten⟩

end Recorder

/-! ## Results -/

theorem Json.oneLine_of_kept {v : Json} (h : Kept depthLimit v) :
    v.OneLine (v.compact ++ [0x0A]) :=
  ⟨rfl, lineFeed_not_mem_compact v, fun hi => parse_compact h hi (Spacing.blank_newLine 0)⟩

/-- A result that the recorder writes is the one for the configuration. -/
theorem NetworkConfig.results_of_concludes {body bytes : Bytes} {document : NetworkConfig}
    {declared : String} (hv : validate body = .ok document)
    (hd : declaredVersion body = .ok declared) (h : Recorder.Concludes .add body bytes) :
    Results body bytes := by
  obtain ⟨settings, hsettings, rfl⟩ := h
  -- The recorder writes what its own reader has found, which is what the two readers before it have
  -- found in the same body.
  obtain ⟨-, hversion, hresult⟩ := Recorder.Settings.settings_of_validate hv hsettings
  have hread := (validate_eq_ok_iff.mp hv).1
  rw [((declaredVersion_eq_ok_iff hread declared).mp hd).1, Option.some.injEq] at hversion
  rw [if_pos rfl, Recorder.resultLine, hresult, ← hversion]
  cases hr : document.result? with
  | some v =>
    exact .configured hv hr (Json.oneLine_of_kept (Recorder.Settings.kept_of_result? hv hr))
  | none =>
    have hkept : Json.Kept 1 (.object [("cniVersion", .text declared)]) := by
      refine ⟨List.pairwise_singleton _ _, fun m hm => ?_⟩
      rw [List.mem_singleton.mp hm]
      exact trivial
    exact .usual hv hr hd (Json.oneLine_of_kept (hkept.mono (by decide)))

/-! ## A dispatch of the recorder -/

theorem Action.eq_of_name {action other : Action} (h : action.name = other.name) :
    action = other := by
  revert h
  cases action <;> cases other <;> decide

namespace Session

section
variable {session : Session} {support : Support} {about : String} {written : Bytes}

/-- On a stream that takes and flushes everything, the answer to VERSION does not fail. -/
theorem encode_eq_none (hroom : session.output.limit = none)
    (hflush : session.output.flushFailure = none) :
    (support.offer.encode.perform session.scene).1 = none := by
  have hscene : session.scene.output.limit = none := hroom
  show ((Conduct.writeAndFlush support.answer).perform session.scene).1 = _
  rw [Conduct.perform_writeAndFlush _ hscene]
  exact hflush

/-- A handler of the recorder that fails has written nothing. -/
theorem written_of_fails (hroom : session.output.limit = none) (action : Action)
    (invocation : Invocation)
    (h : ((Recorder.handle action invocation).perform session.scene).1.Fails) :
    (Recorder.handle action invocation).written session.scene = [] := by
  have hscene : session.scene.output.limit = none := hroom
  rcases Recorder.handle_failsOrWrites hscene action invocation with ⟨-, hnone⟩ | ⟨hsuccess, -⟩
  · exact hnone
  · rw [hsuccess] at h
    obtain ⟨fault, hfault⟩ := h
    cases hfault

/-- What ends well is the about text, the answer to VERSION or a call. -/
theorem called_or_asks {plugin : Plugin} {offer : Offer}
    (hok : (session.dispatch plugin offer about).result = .ok ()) :
    session.AsksAbout about ∨ session.AsksVersions ∨
      ∃ call, (session.dispatch plugin offer about).call = some call := by
  rcases admits_or_settles session offer about with ⟨_, _, _, _, ha⟩ | ⟨result, hs⟩
  · exact .inr (.inr ⟨_, call_of_admits ha plugin about⟩)
  · rw [(dispatch_of_settles hs plugin).2] at hok
    subst hok
    cases hs with
    | about given hnone habout => exact .inl ⟨_, given, hnone, habout⟩
    | answered given hversion _ => exact .inr (.inl ⟨_, given, hversion⟩)

/-- The variables ask for one thing at most. -/
theorem AsksFor.command_eq {action : Action} (h : session.AsksFor action)
    {parameters : Parameters} (given : session.environment.Gives session.lookups parameters) :
    parameters .command = action.name := by
  obtain ⟨others, hothers, hcommand⟩ := h
  rw [← hcommand, Parameters.gives_unique given hothers]

/-- A run that has performed an operation has written what the recorder writes for it. -/
theorem concludes_of_performed (hroom : session.output.limit = none) {action : Action}
    (asks : session.AsksFor action)
    (hok : (session.dispatch Recorder.plugin support.offer about).result = .ok ())
    (hw : session.Writes Recorder.plugin support.offer about written) :
    ∃ body left document declared, session.input.Delivers body left ∧
      NetworkConfig.validate body = .ok document ∧
      NetworkConfig.declaredVersion body = .ok declared ∧
      Recorder.Concludes action body written := by
  -- Whatever ends well without a call was asked for by another command.
  rcases called_or_asks hok with ⟨parameters, given, hnone, -⟩ | ⟨parameters, given, hversion⟩ |
    ⟨⟨performed, invocation⟩, hc⟩
  · rw [asks.command_eq given] at hnone
    cases action <;> exact absurd hnone (by decide)
  · rw [asks.command_eq given] at hversion
    cases action <;> exact absurd hversion (by decide)
  · rw [(dispatch_of_called hc).1] at hok
    rw [Writes, hc] at hw
    obtain ⟨parameters, body, declared, ha, rfl⟩ := admits_of_call hc
    obtain ⟨document, hvalid⟩ := ha.valid
    obtain ⟨left, hdelivered⟩ := ha.delivered
    obtain rfl : action = performed :=
      Action.eq_of_name ((asks.command_eq ha.given).symm.trans ha.command)
    refine ⟨body, left, document, declared, hdelivered, hvalid, ha.declares, ?_⟩
    have hscene : session.scene.output.limit = none := hroom
    rcases Recorder.handle_failsOrWrites hscene action
      (parameters.toInvocation (.perform action) body) with ⟨⟨fault, hfails⟩, -⟩ | ⟨-, hconcludes⟩
    · rw [Recorder.plugin, hfails] at hok
      cases hok
    · rw [hw]
      exact hconcludes

end

/-! ## A run of the recorder -/

section
variable {session : Session} {support : Support} {about : String} {written : Bytes}

theorem written_of_told (h : session.AsksAbout about)
    (hw : session.Writes Recorder.plugin support.offer about written) : written = [] := by
  have hplan : (session.plan support.offer.support about).1 = .ok .about :=
    (plan_eq_about_iff session support about).mpr h
  unfold Writes at hw
  rw [dispatch_of_plan hplan] at hw
  rcases hw with ⟨asks, -⟩ | ⟨-, hnone⟩
  · rw [(plan_eq_answer_iff session support.offer.support about).mpr asks] at hplan
    cases hplan
  · exact hnone

theorem written_of_asksVersions (hroom : session.output.limit = none) (h : session.AsksVersions)
    (hw : session.Writes Recorder.plugin support.offer about written) :
    written = support.answer := by
  have hplan : (session.plan support.offer.support about).1 = .ok .answer :=
    (plan_eq_answer_iff session support about).mpr h
  unfold Writes at hw
  rw [(dispatch_of_answer hplan Recorder.plugin).1] at hw
  rcases hw with ⟨-, hanswer⟩ | ⟨hnot, -⟩
  · rw [hanswer]
    show (Conduct.writeAndFlush support.answer).written session.scene = _
    rw [Conduct.writeAndFlush, Conduct.written_write hroom]
    exact List.append_nil _
  · exact absurd h hnot

theorem asks_of_ok {plugin : Plugin} {offer : Offer}
    (hok : (session.dispatch plugin offer about).result = .ok ()) :
    session.AsksAbout about ∨ session.AsksVersions ∨ ∃ action, session.AsksFor action := by
  rcases called_or_asks hok with habout | hversions | ⟨⟨action, invocation⟩, hc⟩
  · exact .inl habout
  · exact .inr (.inl hversions)
  · obtain ⟨parameters, body, declared, ha, -⟩ := admits_of_call hc
    exact .inr (.inr ⟨action, parameters, ha.given, ha.command⟩)

/-- A failed run adds the report of its fault. -/
theorem leavesOne_of_failed (hroom : session.output.limit = none)
    (hflush : session.output.flushFailure = none) {fault : Fault}
    (hf : (session.dispatch Recorder.plugin support.offer about).result = .error fault) :
    session.LeavesOne support about (session.run Recorder.plugin support.offer about)
      (Report.ofFault fault).printed := by
  have hstatus : (session.run Recorder.plugin support.offer about).status = 1 :=
    Dispatched.status_eq_one_iff.mpr ⟨fault, hf⟩
  have hzero : (session.run Recorder.plugin support.offer about).status ≠ 0 := by
    rw [hstatus]
    decide
  -- Neither the about text nor the answer to VERSION can have failed.
  exact
    { failed := fun _ => ⟨fault, hf, rfl, Fault.read_printed fault⟩
      told := by
        intro h
        rw [(dispatch_of_asksAbout session Recorder.plugin support.offer about h).1] at hf
        cases hf
      answered := by
        intro h
        rw [(dispatch_of_asksVersions session Recorder.plugin support.offer about h).1,
          encode_eq_none hroom hflush] at hf
        cases hf
      attached := fun _ hok => absurd hok hzero
      released := fun _ hok => absurd hok hzero
      complete := .inl hstatus }

/-- A run that ends well adds what it was asked for. -/
theorem leavesOne_of_ok (hroom : session.output.limit = none)
    (hok : (session.dispatch Recorder.plugin support.offer about).result = .ok ())
    (hw : session.Writes Recorder.plugin support.offer about written) :
    session.LeavesOne support about (session.run Recorder.plugin support.offer about)
      written := by
  have hstatus : (session.run Recorder.plugin support.offer about).status = 0 :=
    Dispatched.status_eq_zero_iff.mpr hok
  have hone : (session.run Recorder.plugin support.offer about).status ≠ 1 := by
    rw [hstatus]
    decide
  have silent {action : Action} (hne : action ≠ .add) (h : session.AsksFor action) :
      written = [] := by
    obtain ⟨body, left, document, declared, -, -, -, settings, -, hwritten⟩ :=
      concludes_of_performed hroom h hok hw
    rw [hwritten, if_neg hne]
  exact
    { failed := fun h => absurd h hone
      told := fun h => ⟨hstatus, written_of_told h hw⟩
      answered := by
        intro h
        rw [written_of_asksVersions hroom h hw]
        refine ⟨hstatus, support.answer_line, fun hne => ?_⟩
        rw [support.decode_answer, if_neg hne]
      attached := by
        intro h _
        obtain ⟨body, left, document, declared, hdelivered, hvalid, hdeclares, hconcludes⟩ :=
          concludes_of_performed hroom h hok hw
        exact ⟨body, left, hdelivered,
          NetworkConfig.results_of_concludes hvalid hdeclares hconcludes⟩
      released := fun h _ => h.elim (silent (by decide)) (silent (by decide))
      complete := .inr ⟨hstatus, asks_of_ok hok⟩ }

end

/-- On a stream that takes and flushes everything, a run of the recorder adds at most one document:
nothing, one line or one report, as the structure says of each case. -/
theorem run_leaves_one (session : Session) (hroom : session.output.limit = none)
    (hflush : session.output.flushFailure = none) (support : Support) (about : String) :
    ∃ added,
      (session.run Recorder.plugin support.offer about).session.output =
        session.output.followedBy added ∧
      session.LeavesOne support about (session.run Recorder.plugin support.offer about) added := by
  cases hr : (session.dispatch Recorder.plugin support.offer about).result with
  | error fault =>
    obtain ⟨written, hwrites, hout⟩ := output_of_failed hroom hr
    have hanswer (h : (support.offer.encode.perform session.scene).1 ≠ none) :
        support.offer.encode.written session.scene = [] :=
      absurd (encode_eq_none hroom hflush) h
    rw [written_of_failed (written_of_fails hroom) hanswer hr hwrites, List.nil_append] at hout
    exact ⟨_, hout, leavesOne_of_failed hroom hflush hr⟩
  | ok _ =>
    obtain ⟨written, hwrites, hout⟩ :=
      output_of_dispatch hroom Recorder.plugin support.offer about
    refine ⟨written, ?_, leavesOne_of_ok hroom hr hwrites⟩
    rw [run, hr]
    exact hout

/-- A configuration with a result of its own, whose members are not in the order of their keys. -/
def reportedBody : Bytes := Text.Utf8.ofString
  "\x7b\"name\":\"n\",\"cniVersion\":\"0.4.0\",\"reportResult\":\x7b\"b\":[1,-2],\"a\":true\x7d\x7d"

/-- Whether a value is an object of a truth value and a list of two integers. -/
def isReported : Json → Bool
  | .object [(_, .bool _), (_, .list [.number (.integer ..), .number (.integer ..)])] => true
  | _ => false

theorem integral_of_isReported {v : Json} (h : isReported v = true) : v.Integral := by
  unfold isReported at h
  split at h
  · refine .object ?_
    simp only [List.forall_mem_cons]
    refine ⟨.bool _, .list ?_, List.forall_mem_nil _⟩
    simp only [List.forall_mem_cons]
    exact ⟨.number _ _, .number _ _, List.forall_mem_nil _⟩
  · cases h

theorem reportedBody_result :
    ∃ document v, NetworkConfig.validate reportedBody = .ok document ∧
      document.result? = some v ∧ v.Integral ∧
      v.compact = Text.Utf8.ofString "\x7b\"a\":true,\"b\":[1,-2]\x7d" := by
  have hwritten :
      ((NetworkConfig.validate reportedBody).toOption.bind (·.result?)).map Json.compact =
        some (Text.Utf8.ofString "\x7b\"a\":true,\"b\":[1,-2]\x7d") := by decide +kernel
  have hshape : ((NetworkConfig.validate reportedBody).toOption.bind (·.result?)).any
      isReported = true := by decide +kernel
  obtain ⟨v, hv, hcompact⟩ := Option.map_eq_some_iff.mp hwritten
  obtain ⟨document, hvalid, hresult⟩ := Option.bind_eq_some_iff.mp hv
  rw [hv, Option.any_some] at hshape
  exact ⟨document, v, Json.ok_of_toOption hvalid, hresult, integral_of_isReported hshape, hcompact⟩

/-- An attachment with that configuration. -/
def reporting : Session := { environment := attaching.environment, input := [.bytes reportedBody] }

theorem reporting_asksFor : reporting.AsksFor .add := by
  refine ⟨((((Parameters.empty.set .command "ADD").set .containerId "c").set .netns "n").set
    .ifName "e").set .path "/bin", fun p => ?_, rfl⟩
  cases p <;> decide

/-- The result is left as one line, and is read back from it. -/
theorem reporting_leaves_one :
    reporting.output.limit = none ∧ reporting.output.flushFailure = none ∧
      ∃ v : Json, v.compact = Text.Utf8.ofString "\x7b\"a\":true,\"b\":[1,-2]\x7d" ∧
        (reporting.run Recorder.plugin (Support.offer ⟨["0.4.0"]⟩) "").session.output.content =
          v.compact ++ [0x0A] ∧
        Json.parse (v.compact ++ [0x0A]) = .ok v := by
  obtain ⟨document, v, hvalid, hresult, hintegral, hcompact⟩ := reportedBody_result
  have hstatus : (reporting.run Recorder.plugin (Support.offer ⟨["0.4.0"]⟩) "").status = 0 := by
    decide +kernel
  obtain ⟨added, hout, hleaves⟩ := run_leaves_one reporting rfl rfl ⟨["0.4.0"]⟩ ""
  obtain ⟨body, left, hdelivered, hresults⟩ := hleaves.attached reporting_asksFor hstatus
  have hread : reporting.input.readToEnd = (.ok reportedBody, []) := rfl
  rw [Input.readToEnd_of_delivers hdelivered] at hread
  cases hread
  cases hresults with
  | usual hv hnone _ _ =>
    rw [hvalid] at hv
    cases hv
    rw [hresult] at hnone
    cases hnone
  | configured hv hr hone =>
    rw [hvalid] at hv
    cases hv
    rw [hresult] at hr
    cases hr
    refine ⟨rfl, rfl, v, hcompact, ?_, ?_⟩
    · rw [hout, ← hone.written]
      rfl
    · rw [← hone.written]
      exact hone.readBack hintegral

end Session
end CniPlugin
