import CniPlugin.Proofs.VariableTable
import CniPlugin.Proofs.InputEnds
import CniPlugin.Proofs.ServedVersions
import CniPlugin.Proofs.DeclaredVersion
/-!
# The stages of an invocation

Before an operation is handed to the plugin it passes several stages: the variables are looked up,
the parameters completed, the input read to its end, the configuration validated and its version
compared.  Whatever the session, the invocation either passes all of them or is settled by the first
one that it does not pass.

Results:
1. `plan_of_admits`: an operation that passes all stages is handed to the plugin.
2. `dispatch_of_settles`: an invocation that is settled before has that result and makes no call.
3. `admits_or_settles`: there is no third way.
-/

namespace CniPlugin

namespace Session

/-! ## Definitions -/

/-- What an operation needs so that it is handed to the plugin. -/
structure Admits (session : Session) (support : Support) (action : Action)
    (parameters : Parameters) (config : Bytes) (declared : String) : Prop where
  given : session.environment.Gives session.lookups parameters
  command : parameters .command = action.name
  containerId : parameters .containerId ≠ ""
  ifName : parameters .ifName ≠ ""
  path : parameters .path ≠ ""
  netns : action ≠ .del → parameters .netns ≠ ""
  delivered : ∃ left, session.input.Delivers config left
  valid : ∃ document, NetworkConfig.validate config = .ok document
  declares : NetworkConfig.declaredVersion config = .ok declared
  served : support.Serves declared action

/-- The variables describe an operation of which no parameter is missing. -/
structure Asks (session : Session) (action : Action) (parameters : Parameters) : Prop where
  given : session.environment.Gives session.lookups parameters
  command : parameters .command = action.name
  complete : parameters.absent = []

/-- The variables describe an operation, and a configuration has arrived that names its network. -/
structure Configures (session : Session) (action : Action) (config : Bytes)
    (document : NetworkConfig) : Prop where
  asks : ∃ parameters, session.Asks action parameters
  delivered : ∃ left, session.input.Delivers config left
  wellFormed : NetworkConfig.read config = .ok (some document)
  named : ∃ name, document.name = some name ∧ name ≠ ""

/-- How an invocation ends without a call of the plugin.  Every way rules out those above it. -/
inductive Settles (session : Session) (offer : Offer) (about : String) :
    Except Fault Unit → Prop
  /-- A variable is set and no text; the first one in the table is named. -/
  | notText {p : Parameter} : session.environment.FirstNotText session.lookups p →
      Settles session offer about
        (.error ⟨.decoding, "env variable " ++ p.variableName ++ " is not valid UTF-8", ""⟩)
  /-- There is no command, but an about text. -/
  | about {parameters : Parameters} : session.environment.Gives session.lookups parameters →
      parameters .command = "" → about ≠ "" → Settles session offer about (.ok ())
  /-- There is neither a command nor an about text. -/
  | noCommand {parameters : Parameters} : session.environment.Gives session.lookups parameters →
      parameters .command = "" → about = "" →
      Settles session offer about
        (.error ⟨.missingVariables, "required env variables [CNI_COMMAND] missing", ""⟩)
  /-- The command needs parameters that are empty; all of them are named. -/
  | missing {parameters : Parameters} : session.environment.Gives session.lookups parameters →
      parameters .command ≠ "" → parameters.absent ≠ [] →
      Settles session offer about (.error ⟨.missingVariables, "required env variables [" ++
        ",".intercalate (parameters.absent.map (·.variableName)) ++ "] missing", ""⟩)
  /-- The command is none. -/
  | unknown {parameters : Parameters} : session.environment.Gives session.lookups parameters →
      parameters .command ∉ ["", "ADD", "CHECK", "DEL", "VERSION"] →
      Settles session offer about
        (.error ⟨.unknownCommand, "unknown CNI_COMMAND: " ++ parameters .command, ""⟩)
  /-- The command is VERSION, and the answer is written. -/
  | answered {parameters : Parameters} : session.environment.Gives session.lookups parameters →
      parameters .command = "VERSION" → (offer.encode.perform session.scene).1 = none →
      Settles session offer about (.ok ())
  /-- The command is VERSION, and writing the answer fails. -/
  | unanswered {parameters : Parameters} {text : String} :
      session.environment.Gives session.lookups parameters → parameters .command = "VERSION" →
      (offer.encode.perform session.scene).1 = some text →
      Settles session offer about (.error ⟨.encoding, text, ""⟩)
  /-- Reading the input fails. -/
  | unread {action : Action} {parameters : Parameters} {text : String} {left : Input} :
      session.Asks action parameters → session.input.BreaksOff text left →
      Settles session offer about (.error ⟨.inputOutput, "error reading from stdin: " ++ text, ""⟩)
  /-- The configuration is malformed. -/
  | malformed {action : Action} {parameters : Parameters} {config : Bytes} {left : Input}
      {e : Json.ReadError} : session.Asks action parameters →
      session.input.Delivers config left → NetworkConfig.read config = .error e →
      Settles session offer about
        (.error ⟨.decoding, "error unmarshall network config: " ++ e.message, ""⟩)
  /-- There is no configuration, or it does not name the network. -/
  | unnamed {action : Action} {parameters : Parameters} {config : Bytes} {left : Input}
      {document? : Option NetworkConfig} : session.Asks action parameters →
      session.input.Delivers config left → NetworkConfig.read config = .ok document? →
      (∀ document, document? = some document →
        document.name = none ∨ document.name = some "") →
      Settles session offer about (.error ⟨.networkConfig, "missing network name", ""⟩)
  /-- The configuration has no version; what is said of it is up to the reader of the version. -/
  | unversioned {action : Action} {config : Bytes} {document : NetworkConfig} {e : Json.ReadError} :
      session.Configures action config document → document.cniVersion = none →
      Json.readDocument (NetworkConfig.versionShape.read {}) config = .error e →
      Settles session offer about
        (.error ⟨.decoding, "decoding version from network config: " ++ e.message, ""⟩)
  /-- The version of the configuration is empty. -/
  | emptyVersion {action : Action} {config : Bytes} {document : NetworkConfig} :
      session.Configures action config document → document.cniVersion = some "" →
      Settles session offer about
        (.error ⟨.decoding, "decoding version from network config: empty cniVersion", ""⟩)
  /-- The declared version cannot be served for the operation. -/
  | refused {action : Action} {config : Bytes} {document : NetworkConfig} {declared : String}
      {fault : Fault} : session.Configures action config document →
      document.cniVersion = some declared → declared ≠ "" →
      offer.support.Refuses declared action fault → Settles session offer about (.error fault)

end Session

/-! ## Completing the parameters -/

theorem Parameters.command_of_complete {parameters : Parameters} {command : Command}
    (ha : parameters.absent = []) (hc : parameters .command = command.name) :
    parameters.command = .ok command := by
  rw [Parameters.command, Parameters.missing_eq_absent, ha]
  simp only [Command.parse, hc, Command.ofName?_name]

theorem Parameters.command_of_absent {parameters : Parameters} (ha : parameters.absent ≠ []) :
    parameters.command = .error (missingFault parameters.absent) := by
  rw [Parameters.command, Parameters.missing_eq_absent]
  cases h : parameters.absent with
  | nil => exact absurd h ha
  | cons p ps => rfl

theorem Parameters.command_of_unknown {parameters : Parameters} (ha : parameters.absent = [])
    (hc : Command.ofName? (parameters .command) = none) :
    parameters.command =
      .error (.plain .unknownCommand ("unknown CNI_COMMAND: " ++ parameters .command)) := by
  rw [Parameters.command, Parameters.missing_eq_absent, ha]
  simp only [Command.parse, hc]

/-- A name that is not that of an operation needs no parameter but the command. -/
theorem Parameters.absent_of_no_operation {parameters : Parameters}
    (h : parameters .command ∉ ["", "ADD", "CHECK", "DEL"]) : parameters.absent = [] := by
  simp only [List.mem_cons, List.not_mem_nil, not_or] at h
  simp [Parameters.absent, Parameter.all, Parameter.NeededFor, h]

theorem Command.ofName?_eq_none_iff {name : String} :
    ofName? name = none ↔ name ∉ ["ADD", "CHECK", "DEL", "VERSION"] := by
  unfold ofName?
  grind

theorem Command.name_of_ofName? {name : String} {command : Command}
    (h : ofName? name = some command) : name = command.name := by
  unfold ofName? at h
  iterate 4
    split at h
    · next hn =>
      cases h
      exact hn
  cases h

/-! ## Planning -/

namespace Session

/-- Planning writes nothing. -/
theorem scene_plan (session : Session) (support : Support) (about : String) :
    (session.plan support about).2.scene = session.scene := by
  unfold plan
  split
  · rfl
  · split
    · rfl
    · split <;> rfl

theorem plan_of_firstNotText {session : Session} {p : Parameter}
    (h : session.environment.FirstNotText session.lookups p) (support : Support)
    (about : String) : (session.plan support about).1 = .error (Parameters.notText p) := by
  rw [plan, Parameters.capture_of_firstNotText h]

theorem plan_of_given {session : Session} {parameters : Parameters}
    (h : session.environment.Gives session.lookups parameters) (support : Support)
    (about : String) :
    (session.plan support about).1 =
      if parameters .command = "" ∧ about ≠ "" then .ok .about
      else
        match (parameters.invocation session.input).1 with
        | .error fault => .error fault
        | .ok invocation => invocation.plan support := by
  rw [plan, Parameters.capture_of_gives h]
  dsimp only
  split
  · rfl
  · split <;> next hi => rw [hi]

theorem Asks.command_ne {session : Session} {action : Action} {parameters : Parameters}
    (h : session.Asks action parameters) : parameters .command ≠ "" := by
  rw [h.command]
  cases action <;> decide

theorem Asks.command_eq {session : Session} {action : Action} {parameters : Parameters}
    (h : session.Asks action parameters) : parameters.command = .ok (.perform action) :=
  Parameters.command_of_complete h.complete h.command

/-- The plan of an operation whose configuration has arrived is up to that configuration. -/
theorem plan_of_asks {session : Session} {action : Action} {parameters : Parameters}
    {config : Bytes} {left : Input} (h : session.Asks action parameters)
    (hd : session.input.Delivers config left) (support : Support) (about : String) :
    (session.plan support about).1 =
      (parameters.toInvocation (.perform action) config).plan support := by
  rw [plan_of_given h.given, if_neg (fun hn => h.command_ne hn.1), Parameters.invocation,
    h.command_eq]
  simp only [Input.readToEnd_of_delivers hd]

theorem plan_of_unread {session : Session} {action : Action} {parameters : Parameters}
    {text : String} {left : Input} (h : session.Asks action parameters)
    (hb : session.input.BreaksOff text left) (support : Support) (about : String) :
    (session.plan support about).1 = .error (Invocation.unreadInput text) := by
  rw [plan_of_given h.given, if_neg (fun hn => h.command_ne hn.1), Parameters.invocation,
    h.command_eq]
  simp only [Input.readToEnd_of_breaksOff hb]

theorem plan_of_command_error {session : Session} {parameters : Parameters} {fault : Fault}
    (h : session.environment.Gives session.lookups parameters)
    (hc : parameters.command = .error fault) (support : Support) {about : String}
    (ha : ¬ (parameters .command = "" ∧ about ≠ "")) :
    (session.plan support about).1 = .error fault := by
  rw [plan_of_given h, if_neg ha, Parameters.invocation, hc]

theorem plan_of_version {session : Session} {parameters : Parameters}
    (h : session.environment.Gives session.lookups parameters)
    (hv : parameters .command = "VERSION") (support : Support) (about : String) :
    (session.plan support about).1 = .ok .answer := by
  have hcomplete : parameters.absent = [] := Parameters.absent_of_no_operation (by rw [hv]; decide)
  have hcommand : parameters.command = .ok .version :=
    Parameters.command_of_complete hcomplete hv
  rw [plan_of_given h, if_neg (fun hn => by rw [hv] at hn; exact absurd hn.1 (by decide)),
    Parameters.invocation, hcommand]
  rfl

theorem command_name_of_ok {parameters : Parameters} {command : Command}
    (h : parameters.command = .ok command) : parameters .command = command.name := by
  unfold Parameters.command at h
  split at h
  · unfold Command.parse at h
    split at h
    · next hc =>
      cases h
      exact Command.name_of_ofName? hc
    · cases h
  · cases h

theorem plan_perform_ne_answer (parameters : Parameters) (action : Action) (config : Bytes)
    (support : Support) :
    (parameters.toInvocation (.perform action) config).plan support ≠ .ok .answer := by
  intro h
  simp only [Invocation.plan, Parameters.toInvocation] at h
  split at h
  · cases h
  · split at h
    · cases h
    · split at h <;> cases h

/-- An answer is planned exactly for VERSION. -/
theorem plan_eq_answer_iff (session : Session) (support : Support) (about : String) :
    (session.plan support about).1 = .ok .answer ↔
      ∃ parameters, session.environment.Gives session.lookups parameters ∧
        parameters .command = "VERSION" := by
  constructor
  · intro h
    rcases Parameters.capture_spec session.environment session.lookups with
      ⟨parameters, -, given⟩ | ⟨p, -, hp⟩
    · refine ⟨parameters, given, ?_⟩
      rw [plan_of_given given] at h
      split at h
      · cases h
      · cases hc : parameters.command with
        | error fault =>
          rw [Parameters.invocation, hc] at h
          cases h
        | ok command =>
          cases command with
          | version => exact command_name_of_ok hc
          | perform action =>
            rw [Parameters.invocation, hc] at h
            rcases session.input.readToEnd_spec with ⟨config, left, hr, -⟩ | ⟨text, left, hr, -⟩
            · simp only [hr] at h
              exact absurd h (plan_perform_ne_answer parameters action config support)
            · simp only [hr] at h
              cases h
    · rw [plan_of_firstNotText hp] at h
      cases h
  · rintro ⟨parameters, given, hv⟩
    exact plan_of_version given hv support about

/-! ## Carrying out -/

theorem dispatch_of_error {session : Session} {offer : Offer} {about : String} {fault : Fault}
    (h : (session.plan offer.support about).1 = .error fault) (plugin : Plugin) :
    session.dispatch plugin offer about =
      ⟨.error fault, (session.plan offer.support about).2, none⟩ := by
  unfold dispatch
  cases hp : session.plan offer.support about with
  | mk result planned =>
    rw [hp] at h
    cases h
    rfl

theorem dispatch_of_plan {session : Session} {offer : Offer} {about : String} {plan : Plan}
    (h : (session.plan offer.support about).1 = .ok plan) (plugin : Plugin) :
    session.dispatch plugin offer about =
      (session.plan offer.support about).2.carryOut plugin offer about plan := by
  unfold dispatch
  cases hp : session.plan offer.support about with
  | mk result planned =>
    rw [hp] at h
    cases h
    rfl

/-- A planned answer is written after what the session has written before. -/
theorem dispatch_of_answer {session : Session} {offer : Offer} {about : String}
    (h : (session.plan offer.support about).1 = .ok .answer) (plugin : Plugin) :
    (session.dispatch plugin offer about).call = none ∧
      (session.dispatch plugin offer about).result =
        answerResult (offer.encode.perform session.scene).1 ∧
      (session.dispatch plugin offer about).session.scene =
        (offer.encode.perform session.scene).2 := by
  rw [dispatch_of_plan h, ← scene_plan session offer.support about]
  exact ⟨rfl, rfl, rfl⟩

/-- A planned call is made once, after what the session has written before. -/
theorem dispatch_of_call {session : Session} {offer : Offer} {about : String} {action : Action}
    {invocation : Invocation}
    (h : (session.plan offer.support about).1 = .ok (.call action invocation)) (plugin : Plugin) :
    (session.dispatch plugin offer about).call = some (action, invocation) ∧
      (session.dispatch plugin offer about).result =
        ((plugin.handle action invocation).perform session.scene).1.result ∧
      (session.dispatch plugin offer about).session.scene =
        ((plugin.handle action invocation).perform session.scene).2 := by
  rw [dispatch_of_plan h, ← scene_plan session offer.support about]
  exact ⟨rfl, rfl, rfl⟩

/-! ## Passing all stages -/

/-- The invocation that the plugin receives. -/
theorem plan_of_admits {session : Session} {support : Support} {action : Action}
    {parameters : Parameters} {config : Bytes} {declared : String}
    (h : session.Admits support action parameters config declared) (about : String) :
    (session.plan support about).1 =
      .ok (.call action (parameters.toInvocation (.perform action) config)) := by
  obtain ⟨left, hd⟩ := h.delivered
  obtain ⟨document, hv⟩ := h.valid
  have hcomplete : parameters.absent = [] :=
    (Parameters.absent_eq_nil_iff h.command).mpr ⟨h.containerId, h.ifName, h.path, h.netns⟩
  rw [plan_of_asks ⟨h.given, h.command, hcomplete⟩ hd]
  simp only [Invocation.plan, Parameters.toInvocation, hv, h.declares,
    Support.serve_of_serves h.served]

/-! ## Being settled by a stage -/

theorem validate_of_read_error {config : Bytes} {e : Json.ReadError}
    (h : NetworkConfig.read config = .error e) :
    NetworkConfig.validate config =
      .error (.plain .decoding ("error unmarshall network config: " ++ e.message)) := by
  simp only [NetworkConfig.validate, NetworkConfig.parse, h]

theorem validate_of_unnamed {config : Bytes} {document? : Option NetworkConfig}
    (h : NetworkConfig.read config = .ok document?)
    (hn : ∀ document, document? = some document → document.name = none ∨ document.name = some "") :
    NetworkConfig.validate config = .error NetworkConfig.unnamed := by
  simp only [NetworkConfig.validate, NetworkConfig.parse, h]
  cases document? with
  | none => rfl
  | some document =>
    rcases hn document rfl with hname | hname
    · simp only [hname]
    · simp only [hname, if_true]

theorem validate_of_named {config : Bytes} {document : NetworkConfig} {name : String}
    (h : NetworkConfig.read config = .ok (some document)) (hn : document.name = some name)
    (hne : name ≠ "") : NetworkConfig.validate config = .ok document := by
  simp only [NetworkConfig.validate, NetworkConfig.parse, h, hn, if_neg hne]

/-- The plan for a valid configuration is up to the version that it declares. -/
theorem plan_of_validated {session : Session} {action : Action} {parameters : Parameters}
    {body : Bytes} {left : Input} {document : NetworkConfig} (asks : session.Asks action parameters)
    (hd : session.input.Delivers body left) (hv : NetworkConfig.validate body = .ok document)
    (support : Support) (about : String) :
    (session.plan support about).1 =
      match NetworkConfig.declaredVersion body with
      | .error fault => .error fault
      | .ok declared =>
        match support.serve action declared with
        | .error fault => .error fault
        | .ok () => .ok (.call action (parameters.toInvocation (.perform action) body)) := by
  rw [plan_of_asks asks hd]
  cases hd : NetworkConfig.declaredVersion body with
  | error fault => simp only [Invocation.plan, Parameters.toInvocation, hv, hd]
  | ok declared =>
    cases hs : support.serve action declared <;>
      simp only [Invocation.plan, Parameters.toInvocation, hv, hd, hs]

/-- The plan of an operation whose configuration names its network is up to the version. -/
theorem plan_of_configures {session : Session} {action : Action} {config : Bytes}
    {document : NetworkConfig} (h : session.Configures action config document)
    (support : Support) (about : String) :
    ∃ invocation, (session.plan support about).1 =
      match NetworkConfig.declaredVersion config with
      | .error fault => .error fault
      | .ok declared =>
        match support.serve action declared with
        | .error fault => .error fault
        | .ok () => .ok (.call action invocation) := by
  obtain ⟨parameters, ha⟩ := h.asks
  obtain ⟨left, hd⟩ := h.delivered
  obtain ⟨name, hn, hne⟩ := h.named
  have hvalid := validate_of_named h.wellFormed hn hne
  exact ⟨_, plan_of_validated ha hd hvalid support about⟩

/-- An invocation that is settled before has that result and makes no call. -/
theorem dispatch_of_settles {session : Session} {offer : Offer} {about : String}
    {result : Except Fault Unit} (h : session.Settles offer about result) (plugin : Plugin) :
    (session.dispatch plugin offer about).call = none ∧
      (session.dispatch plugin offer about).result = result := by
  -- Most stages settle an invocation by making its plan fail.
  have failed {fault : Fault} (hp : (session.plan offer.support about).1 = .error fault) :
      (session.dispatch plugin offer about).call = none ∧
        (session.dispatch plugin offer about).result = .error fault := by
    rw [dispatch_of_error hp]
    exact ⟨rfl, rfl⟩
  cases h with
  | notText hp => exact failed (plan_of_firstNotText hp _ _)
  | about given hc ha =>
    have hplan : (session.plan offer.support about).1 = .ok .about := by
      rw [plan_of_given given, if_pos ⟨hc, ha⟩]
    rw [dispatch_of_plan hplan]
    exact ⟨rfl, rfl⟩
  | noCommand given hc ha =>
    -- No command is a missing parameter like any other, and then the only one.
    have habsent := Parameters.absent_of_no_command hc
    have hcommand := Parameters.command_of_absent (by rw [habsent]; exact List.cons_ne_nil _ _)
    rw [habsent] at hcommand
    exact failed (plan_of_command_error given hcommand _ fun hn => hn.2 ha)
  | missing given hc ha =>
    have hcommand := Parameters.command_of_absent ha
    exact failed (plan_of_command_error given hcommand _ fun hn => hc hn.1)
  | @unknown parameters given hc =>
    have habsent : parameters.absent = [] :=
      Parameters.absent_of_no_operation fun hm => hc (List.mem_append_left ["VERSION"] hm)
    have hnone : Command.ofName? (parameters .command) = none :=
      Command.ofName?_eq_none_iff.mpr fun hm => hc (List.mem_cons_of_mem _ hm)
    have hcommand := Parameters.command_of_unknown habsent hnone
    exact failed (plan_of_command_error given hcommand _ fun hn => hc (by simp [hn.1]))
  | answered given hv hr =>
    obtain ⟨hcall, hresult, -⟩ := dispatch_of_answer (plan_of_version given hv _ about) plugin
    rw [hr] at hresult
    exact ⟨hcall, hresult⟩
  | unanswered given hv hr =>
    obtain ⟨hcall, hresult, -⟩ := dispatch_of_answer (plan_of_version given hv _ about) plugin
    rw [hr] at hresult
    exact ⟨hcall, hresult⟩
  | unread asks hb => exact failed (plan_of_unread asks hb _ _)
  | malformed asks hd hr =>
    refine failed ?_
    rw [plan_of_asks asks hd]
    simp only [Invocation.plan, Parameters.toInvocation, validate_of_read_error hr]
    rfl
  | unnamed asks hd hr hn =>
    refine failed ?_
    rw [plan_of_asks asks hd]
    simp only [Invocation.plan, Parameters.toInvocation, validate_of_unnamed hr hn]
    rfl
  | unversioned hc _ he =>
    obtain ⟨invocation, hp⟩ := plan_of_configures hc offer.support about
    rw [NetworkConfig.declaredVersion_of_error he] at hp
    exact failed hp
  | emptyVersion hc hv =>
    obtain ⟨invocation, hp⟩ := plan_of_configures hc offer.support about
    rw [NetworkConfig.declaredVersion_of_empty hc.wellFormed hv] at hp
    exact failed hp
  | refused hc hv hne hr =>
    obtain ⟨invocation, hp⟩ := plan_of_configures hc offer.support about
    rw [(NetworkConfig.declaredVersion_eq_ok_iff hc.wellFormed _).mpr ⟨hv, hne⟩] at hp
    simp only [Support.serve_of_refuses hr] at hp
    exact failed hp

/-! ## There is no third way -/

/-- An operation whose configuration names its network is up to its version. -/
theorem Configures.admits_or_settles {session : Session} {action : Action} {config : Bytes}
    {document : NetworkConfig} (h : session.Configures action config document) (offer : Offer)
    (about : String) :
    (∃ action parameters config declared,
        session.Admits offer.support action parameters config declared) ∨
      ∃ result, session.Settles offer about result := by
  cases hv : document.cniVersion with
  | none =>
    obtain ⟨e, he⟩ := NetworkConfig.versionDocument_of_none h.wellFormed hv
    exact .inr ⟨_, .unversioned h hv he⟩
  | some declared =>
    by_cases hne : declared = ""
    · exact .inr ⟨_, .emptyVersion h (by rw [hv, hne])⟩
    obtain ⟨parameters, asks⟩ := h.asks
    obtain ⟨name, hname, hnamed⟩ := h.named
    obtain ⟨hid, hif, hpath, hnetns⟩ :=
      (Parameters.absent_eq_nil_iff asks.command).mp asks.complete
    -- The declared version is the last stage.
    rcases offer.support.serve_spec action declared with ⟨-, hs⟩ | ⟨fault, -, hr⟩
    · exact .inl ⟨action, parameters, config, declared,
        { given := asks.given
          command := asks.command
          containerId := hid
          ifName := hif
          path := hpath
          netns := hnetns
          delivered := h.delivered
          valid := ⟨document, validate_of_named h.wellFormed hname hnamed⟩
          declares := (NetworkConfig.declaredVersion_eq_ok_iff h.wellFormed declared).mpr ⟨hv, hne⟩
          served := hs }⟩
    · exact .inr ⟨_, .refused h hv hne hr⟩

/-- An operation without missing parameters is up to its input. -/
theorem Asks.admits_or_settles {session : Session} {action : Action} {parameters : Parameters}
    (h : session.Asks action parameters) (offer : Offer) (about : String) :
    (∃ action parameters config declared,
        session.Admits offer.support action parameters config declared) ∨
      ∃ result, session.Settles offer about result := by
  rcases session.input.readToEnd_spec with ⟨config, left, -, hd⟩ | ⟨text, left, -, hb⟩
  · cases hr : NetworkConfig.read config with
    | error e => exact .inr ⟨_, .malformed h hd hr⟩
    | ok document? =>
      cases document? with
      | none => exact .inr ⟨_, .unnamed h hd hr (fun _ hn => by cases hn)⟩
      | some document =>
        by_cases hn : document.name = none ∨ document.name = some ""
        · exact .inr ⟨_, .unnamed h hd hr (fun _ he => by cases he; exact hn)⟩
        · obtain ⟨name, hname⟩ : ∃ name, document.name = some name :=
            Option.ne_none_iff_exists'.mp fun he => hn (.inl he)
          have hconfigures : session.Configures action config document :=
            ⟨⟨parameters, h⟩, ⟨left, hd⟩, hr, name, hname, fun he => hn (.inr (by rw [hname, he]))⟩
          exact hconfigures.admits_or_settles offer about
  · exact .inr ⟨_, .unread h hb⟩

/-- Every invocation is handed to the plugin or settled by a stage before. -/
theorem admits_or_settles (session : Session) (offer : Offer) (about : String) :
    (∃ action parameters config declared,
        session.Admits offer.support action parameters config declared) ∨
      ∃ result, session.Settles offer about result := by
  rcases Parameters.capture_spec session.environment session.lookups with
    ⟨parameters, -, given⟩ | ⟨p, -, hp⟩
  case inr => exact .inr ⟨_, .notText hp⟩
  by_cases hc : parameters .command = ""
  · by_cases ha : about = ""
    · exact .inr ⟨_, .noCommand given hc ha⟩
    · exact .inr ⟨_, .about given hc ha⟩
  by_cases hcomplete : parameters.absent = []
  case neg => exact .inr ⟨_, .missing given hc hcomplete⟩
  by_cases hadd : parameters .command = "ADD"
  · have asks : session.Asks .add parameters := ⟨given, hadd, hcomplete⟩
    exact asks.admits_or_settles offer about
  by_cases hcheck : parameters .command = "CHECK"
  · have asks : session.Asks .check parameters := ⟨given, hcheck, hcomplete⟩
    exact asks.admits_or_settles offer about
  by_cases hdel : parameters .command = "DEL"
  · have asks : session.Asks .del parameters := ⟨given, hdel, hcomplete⟩
    exact asks.admits_or_settles offer about
  by_cases hversion : parameters .command = "VERSION"
  · cases he : (offer.encode.perform session.scene).1 with
    | none => exact .inr ⟨_, .answered given hversion he⟩
    | some text => exact .inr ⟨_, .unanswered given hversion he⟩
  · exact .inr ⟨_, .unknown given (by simp [hc, hadd, hcheck, hdel, hversion])⟩

end Session
end CniPlugin
