import CniPlugin.Proofs.LogJournal
/-!
# How an operation of the recorder ends

The recorder reads its settings and the extra arguments, logs the invocation, and ends as its
settings say.  The first of these steps that fails decides what is reported, and the steps after it
are not taken: where the settings or the arguments are malformed nothing is logged, and an operation
that is not logged does not end as its settings say.

Operations are compared where the log takes their lines alike.  That is so for any lines unless the
room for the files has a limit.

Results:
1. `outcome_of_handle`: the ending in terms of the settings, the arguments, the files and the
   stream.
2. `ends_handle`, `handle_of_ends`: every operation ends in one of the ways, and only in one.
3. `loggedAlike_of_unlimited`: without a limit the log takes all lines alike.
4. `Immaterial.outcome_eq`: settings that have no part in the ending.
5. `handle_del`, `outcome_add`: the three operations compared.
6. `operation_ends`: all of it for an operation that reaches the recorder.
-/

namespace CniPlugin

namespace Recorder

/-! ## Definitions -/

/-- The invocation is logged if there is a path to log it to: the files afterwards. -/
inductive Logs (settings : Settings) (pairs : List (String × String)) (invocation : Invocation)
    (files : Files) : Files → Prop
  | nowhere : (∀ path, ¬ SelectsPath settings pairs path) →
      Logs settings pairs invocation files files
  | appended {path : String} {after : Files} : SelectsPath settings pairs path →
      files.append path (Entry.ofInvocation invocation).line = (none, after) →
      Logs settings pairs invocation files after

/-- All steps before the last one succeed. -/
structure Proceeds (invocation : Invocation) (files : Files) (settings : Settings)
    (after : Files) : Prop where
  configured : Settings.read invocation.config = .ok settings
  logged : ∃ pairs, ExtraArgs.parse invocation.args = .ok pairs ∧
    Logs settings pairs invocation files after

/-- How an operation ends, and the files afterwards.  Every way rules out those above it. -/
inductive Ends (action : Action) (invocation : Invocation) (scene : Scene) :
    Except Fault Unit → Files → Prop
  /-- The settings are malformed. -/
  | misconfigured {e : Json.ReadError} : Settings.read invocation.config = .error e →
      Ends action invocation scene
        (.error ⟨.decoding, "failed to load noop config: " ++ e.message, ""⟩) scene.files
  /-- The extra arguments are malformed. -/
  | misargued {settings : Settings} {e : ExtraArgs.InvalidPair} :
      Settings.read invocation.config = .ok settings →
      ExtraArgs.parse invocation.args = .error e →
      Ends action invocation scene
        (.error ⟨.networkConfig, "ARGS: invalid pair " ++ Text.quoted e.entry, ""⟩) scene.files
  /-- The invocation cannot be logged to the selected path; the log keeps what it has taken. -/
  | unlogged {settings : Settings} {pairs : List (String × String)} {path : String}
      {e : FileFault} : Settings.read invocation.config = .ok settings →
      ExtraArgs.parse invocation.args = .ok pairs → SelectsPath settings pairs path →
      (scene.files.append path (Entry.ofInvocation invocation).line).1 = some e →
      Ends action invocation scene
        (.error ⟨.handler, "failed to write command log " ++ path,
          "failed to write command log " ++ path ++ ": " ++ e.message⟩)
        (scene.files.append path (Entry.ofInvocation invocation).line).2
  /-- The settings ask for an error with the code of a kind. -/
  | told {settings : Settings} {after : Files} {message : String} (kind : Fault.Kind) :
      Proceeds invocation scene.files settings after → settings.error = some message →
      settings.errorCode = some kind.code →
      Ends action invocation scene (.error ⟨kind, message, ""⟩) after
  /-- The settings ask for an error with a code that no kind has. -/
  | toldUnknown {settings : Settings} {after : Files} {message : String} {code : UInt32} :
      Proceeds invocation scene.files settings after → settings.error = some message →
      settings.errorCode = some code → (∀ kind : Fault.Kind, kind.code ≠ code) →
      Ends action invocation scene (.error ⟨.internal, message, ""⟩) after
  /-- The settings ask for an error without a code. -/
  | toldPlain {settings : Settings} {after : Files} {message : String} :
      Proceeds invocation scene.files settings after → settings.error = some message →
      settings.errorCode = none →
      Ends action invocation scene (.error ⟨.handler, message, message⟩) after
  /-- The result of ADD cannot be written. -/
  | unwritten {settings : Settings} {after : Files} {text : String} :
      Proceeds invocation scene.files settings after → settings.error = none → action = .add →
      (scene.output.write (resultLine settings)).1 = some text →
      Ends action invocation scene
        (.error ⟨.handler, "failed to write result", "failed to write result: " ++ text⟩) after
  /-- No step fails. -/
  | performed {settings : Settings} {after : Files} :
      Proceeds invocation scene.files settings after → settings.error = none →
      (action = .add → (scene.output.write (resultLine settings)).1 = none) →
      Ends action invocation scene (.ok ()) after

/-- Settings that differ in nothing that has a part in the ending. -/
inductive Immaterial (args : String) (settings : Settings) : Settings → Prop
  /-- The code of an error that is not asked for. -/
  | code {errorCode : Option UInt32} : settings.error = none →
      Immaterial args settings { settings with errorCode }
  /-- The path of the log where a `DEBUG` pair selects another one. -/
  | logPath {logPath : Option String} {pairs : List (String × String)} {pair : String × String} :
      ExtraArgs.parse args = .ok pairs → pair ∈ pairs → pair.1 = "DEBUG" →
      Immaterial args settings { settings with logPath }

/-- The log that an invocation selects takes the line of another one as it takes its own. -/
def LoggedAlike (invocation other : Invocation) (files : Files) : Prop :=
  ∀ settings pairs path, Settings.read invocation.config = .ok settings →
    ExtraArgs.parse invocation.args = .ok pairs → SelectsPath settings pairs path →
    (files.append path (Entry.ofInvocation other).line).1 =
      (files.append path (Entry.ofInvocation invocation).line).1

/-- How the log fails, if it does. -/
def logFailure? (path? : Option String) (invocation : Invocation) (files : Files) :
    Option Outcome :=
  path?.bind fun path => (files.append path (Entry.ofInvocation invocation).line).1.map
    fun e => logFailure path e.message

/-- How the last step ends. -/
def conclusion (action : Action) (settings : Settings) (output : Output) : Outcome :=
  match reportedError settings with
  | some outcome => outcome
  | none =>
    match action with
    | .add =>
      match (output.write (resultLine settings)).1 with
      | some text => resultFailure text
      | none => .success
    | .check | .del => .success

end Recorder

/-! ## Steps -/

namespace Recorder

variable {action : Action} {invocation : Invocation} {scene : Scene} {settings : Settings}
  {pairs : List (String × String)}

theorem Settings.parse_eq_ok_iff {body : Bytes} {settings : Settings} :
    Settings.parse body = .ok settings ↔ Settings.read body = .ok settings := by
  unfold Settings.parse
  split
  · next h => simp only [h, Except.ok.injEq]
  · next h => simp [h]

theorem argPairs_eq_ok_iff {pairs : List (String × String)} :
    invocation.argPairs = .ok pairs ↔ ExtraArgs.parse invocation.args = .ok pairs := by
  unfold Invocation.argPairs
  split
  · next h => simp only [h, Except.ok.injEq]
  · next h => simp [h]

theorem outcome_of_conclude (action : Action) (settings : Settings) (scene : Scene) :
    ((conclude action settings).perform scene).1 = conclusion action settings scene.output := by
  cases herror : reportedError settings with
  | some outcome =>
    simp only [conclude, conclusion, herror]
    rfl
  | none =>
    cases action with
    | add =>
      simp only [conclude, conclusion, herror, Conduct.perform]
      cases (scene.output.write (resultLine settings)).1 <;> rfl
    | check | del =>
      simp only [conclude, conclusion, herror]
      rfl

theorem outcome_of_record (path? : Option String) (invocation : Invocation)
    (action : Action) (settings : Settings) (scene : Scene) :
    ((record path? invocation (conclude action settings)).perform scene).1 =
      (logFailure? path? invocation scene.files).getD
        (conclusion action settings scene.output) := by
  cases path? with
  | none => exact outcome_of_conclude action settings scene
  | some path =>
    rw [record, Conduct.perform, logFailure?, Option.bind_some]
    dsimp only
    cases (scene.files.append path (Entry.ofInvocation invocation).line).1 with
    | none => exact outcome_of_conclude action settings _
    | some e => rfl

/-- The ending of an operation whose settings and arguments are well-formed. -/
theorem outcome_of_handle (hs : Settings.read invocation.config = .ok settings)
    (hp : ExtraArgs.parse invocation.args = .ok pairs) (action : Action) (scene : Scene) :
    ((handle action invocation).perform scene).1 =
      (logFailure? (logPath settings pairs) invocation scene.files).getD
        (conclusion action settings scene.output) := by
  unfold handle
  simp only [Settings.parse_eq_ok_iff.mpr hs, argPairs_eq_ok_iff.mpr hp]
  exact outcome_of_record _ invocation action settings scene

theorem handle_of_misconfigured {e : Json.ReadError}
    (h : Settings.read invocation.config = .error e) (action : Action) :
    handle action invocation = .done (.failure (.fault
      (.plain .decoding ("failed to load noop config: " ++ e.message))) []) := by
  simp only [handle, Settings.parse, h]

theorem handle_of_misargued {e : ExtraArgs.InvalidPair}
    (hs : Settings.read invocation.config = .ok settings)
    (hp : ExtraArgs.parse invocation.args = .error e) (action : Action) :
    handle action invocation =
      .done (.failure (.fault (.plain .networkConfig e.message)) []) := by
  simp only [handle, Settings.parse_eq_ok_iff.mpr hs, Invocation.argPairs, hp]

/-! ## Ways to end -/

theorem logPath_eq_none_iff :
    logPath settings pairs = none ↔ ∀ path, ¬ SelectsPath settings pairs path := by
  rw [Option.eq_none_iff_forall_ne_some]
  exact forall_congr' fun path => not_congr logPath_eq_some_iff

/-- Where the invocation cannot be logged, that is the end. -/
theorem handle_of_unlogged {path : String} {e : FileFault}
    (hs : Settings.read invocation.config = .ok settings)
    (hp : ExtraArgs.parse invocation.args = .ok pairs) (hselects : SelectsPath settings pairs path)
    (hfault : (scene.files.append path (Entry.ofInvocation invocation).line).1 = some e)
    (action : Action) :
    ((handle action invocation).perform scene).1 = logFailure path e.message ∧
      ((handle action invocation).perform scene).2.files =
        (scene.files.append path (Entry.ofInvocation invocation).line).2 := by
  constructor
  · rw [outcome_of_handle hs hp, logPath_eq_some_iff.mpr hselects, logFailure?, Option.bind_some,
      hfault]
    rfl
  · exact files_of_handle_of_selects (Settings.parse_eq_ok_iff.mpr hs)
      (argPairs_eq_ok_iff.mpr hp) hselects scene

/-- Once the invocation is logged, the operation ends as the settings say. -/
theorem Proceeds.handle_eq {after : Files} (h : Proceeds invocation scene.files settings after)
    (action : Action) :
    ((handle action invocation).perform scene).1 = conclusion action settings scene.output ∧
      ((handle action invocation).perform scene).2.files = after := by
  obtain ⟨pairs, hp, hlogs⟩ := h.logged
  rw [outcome_of_handle h.configured hp]
  cases hlogs with
  | nowhere hnone =>
    rw [logPath_eq_none_iff.mpr hnone]
    refine ⟨rfl, ?_⟩
    rcases files_of_handle action invocation scene with
      hkept | ⟨settings', pairs', path, hs', hp', hpath, -⟩
    · exact hkept
    · cases h.configured.symm.trans (Settings.parse_eq_ok_iff.mp hs')
      cases hp.symm.trans (argPairs_eq_ok_iff.mp hp')
      exact absurd hpath (hnone path)
  | @appended path _ hpath happend =>
    rw [logPath_eq_some_iff.mpr hpath, logFailure?, Option.bind_some, happend]
    refine ⟨rfl, ?_⟩
    rw [files_of_handle_of_selects (Settings.parse_eq_ok_iff.mpr h.configured)
      (argPairs_eq_ok_iff.mpr hp) hpath, happend]

/-- Every way that the last step can end is one of the ways to end. -/
theorem Proceeds.ends {after : Files} (h : Proceeds invocation scene.files settings after)
    (action : Action) :
    Ends action invocation scene (conclusion action settings scene.output).result after := by
  unfold conclusion reportedError
  cases herror : settings.error with
  | some message =>
    cases hcode : settings.errorCode with
    | none => exact .toldPlain h herror hcode
    | some code =>
      simp only [Option.map_some, Outcome.result, Fault.ofCode]
      cases hkind : Fault.Kind.ofCode? code with
      | some kind =>
        have hhas : kind.code = code := by simpa using List.find?_some hkind
        exact .told kind h herror (hhas ▸ hcode)
      | none =>
        refine .toldUnknown h herror hcode fun kind hhas => ?_
        rw [← hhas, Fault.Kind.ofCode?_code] at hkind
        cases hkind
  | none =>
    have hsuccess (hw : action = .add → (scene.output.write (resultLine settings)).1 = none) :
        Ends action invocation scene (.ok ()) after := .performed h herror hw
    cases action with
    | add =>
      cases hw : (scene.output.write (resultLine settings)).1 with
      | some text =>
        simp only [Option.map_none]
        exact .unwritten h herror rfl hw
      | none =>
        simp only [Option.map_none]
        exact hsuccess fun _ => hw
    | check | del => exact hsuccess fun h => absurd h (by decide)

/-- Every operation ends in one of the ways. -/
theorem ends_handle (action : Action) (invocation : Invocation) (scene : Scene) :
    Ends action invocation scene ((handle action invocation).perform scene).1.result
      ((handle action invocation).perform scene).2.files := by
  cases hs : Settings.read invocation.config with
  | error e =>
    rw [handle_of_misconfigured hs]
    exact .misconfigured hs
  | ok settings =>
    cases hp : ExtraArgs.parse invocation.args with
    | error e =>
      rw [handle_of_misargued hs hp]
      exact .misargued hs hp
    | ok pairs =>
      have proceeds {after : Files} (hlogs : Logs settings pairs invocation scene.files after) :
          Ends action invocation scene ((handle action invocation).perform scene).1.result
            ((handle action invocation).perform scene).2.files := by
        have h : Proceeds invocation scene.files settings after := ⟨hs, pairs, hp, hlogs⟩
        obtain ⟨houtcome, hfiles⟩ := h.handle_eq action
        rw [houtcome, hfiles]
        exact h.ends action
      cases hpath : logPath settings pairs with
      | none => exact proceeds (.nowhere (logPath_eq_none_iff.mp hpath))
      | some path =>
        have hselects := logPath_eq_some_iff.mp hpath
        cases happend : scene.files.append path (Entry.ofInvocation invocation).line with
        | mk fault after =>
          cases fault with
          | none => exact proceeds (.appended hselects happend)
          | some e =>
            have hfault := congrArg Prod.fst happend
            obtain ⟨houtcome, hfiles⟩ := handle_of_unlogged hs hp hselects hfault action
            rw [houtcome, hfiles]
            exact .unlogged hs hp hselects hfault

/-- No operation ends in any other way. -/
theorem handle_of_ends {result : Except Fault Unit} {files : Files}
    (h : Ends action invocation scene result files) :
    ((handle action invocation).perform scene).1.result = result ∧
      ((handle action invocation).perform scene).2.files = files := by
  have last {settings : Settings} {after : Files}
      (hproceeds : Proceeds invocation scene.files settings after) {result : Except Fault Unit}
      (hresult : (conclusion action settings scene.output).result = result) :
      ((handle action invocation).perform scene).1.result = result ∧
        ((handle action invocation).perform scene).2.files = after := by
    obtain ⟨houtcome, hfiles⟩ := hproceeds.handle_eq action
    exact ⟨by rw [houtcome, hresult], hfiles⟩
  cases h with
  | misconfigured hs =>
    rw [handle_of_misconfigured hs]
    exact ⟨rfl, rfl⟩
  | misargued hs hp =>
    rw [handle_of_misargued hs hp]
    exact ⟨rfl, rfl⟩
  | unlogged hs hp hselects hfault =>
    obtain ⟨houtcome, hfiles⟩ := handle_of_unlogged hs hp hselects hfault action
    exact ⟨congrArg Outcome.result houtcome, hfiles⟩
  | told kind hproceeds herror hcode =>
    refine last hproceeds ?_
    simp only [conclusion, reportedError, herror, hcode, Option.map_some, Outcome.result,
      Fault.ofCode, Fault.Kind.ofCode?_code, Option.getD_some]
  | toldUnknown hproceeds herror hcode hnone =>
    refine last hproceeds ?_
    have hkind : Fault.Kind.ofCode? _ = none :=
      List.find?_eq_none.mpr fun kind _ => by simpa using hnone kind
    simp only [conclusion, reportedError, herror, hcode, Option.map_some, Outcome.result,
      Fault.ofCode, hkind, Option.getD_none]
  | toldPlain hproceeds herror hcode =>
    refine last hproceeds ?_
    simp only [conclusion, reportedError, herror, hcode, Option.map_some, Outcome.result]
    rfl
  | unwritten hproceeds herror hadd hwrite =>
    subst hadd
    refine last hproceeds ?_
    simp only [conclusion, reportedError, herror, Option.map_none, hwrite]
    rfl
  | performed hproceeds herror hwrite =>
    refine last hproceeds ?_
    cases action with
    | add =>
      simp only [conclusion, reportedError, herror, Option.map_none, hwrite rfl]
      rfl
    | check | del => simp only [conclusion, reportedError, herror, Option.map_none, Outcome.result]

/-! ## What has no part in the ending -/

/-- Without a limit the log takes all lines alike. -/
theorem loggedAlike_of_unlimited {files : Files} (h : files.room = none)
    (invocation other : Invocation) : LoggedAlike invocation other files :=
  fun _ _ path _ _ _ =>
    Files.append_fault_of_unlimited h path (Entry.line_ne_nil _) (Entry.line_ne_nil _)

/-- The log fails alike where it takes the lines alike. -/
theorem LoggedAlike.logFailure?_eq {other : Invocation} {files : Files}
    (h : LoggedAlike invocation other files)
    (hs : Settings.read invocation.config = .ok settings)
    (hp : ExtraArgs.parse invocation.args = .ok pairs) :
    logFailure? (logPath settings pairs) other files =
      logFailure? (logPath settings pairs) invocation files := by
  cases hpath : logPath settings pairs with
  | none => rw [logFailure?, logFailure?, Option.bind_none, Option.bind_none]
  | some path =>
    rw [logFailure?, logFailure?, Option.bind_some, Option.bind_some,
      h settings pairs path hs hp (logPath_eq_some_iff.mp hpath)]

/-- The ending depends on the arguments, on what the settings make of the steps, and on how the log
takes the line. -/
theorem outcome_of_settings {other : Invocation} {settings' : Settings}
    (hs : Settings.read invocation.config = .ok settings)
    (ho : Settings.read other.config = .ok settings') (hargs : other.args = invocation.args)
    (halike : LoggedAlike invocation other scene.files)
    (hpath : ∀ pairs, ExtraArgs.parse invocation.args = .ok pairs →
      logPath settings' pairs = logPath settings pairs)
    (hlast : ∀ output, conclusion action settings' output = conclusion action settings output) :
    ((handle action other).perform scene).1 = ((handle action invocation).perform scene).1 := by
  cases hp : ExtraArgs.parse invocation.args with
  | error e => rw [handle_of_misargued hs hp, handle_of_misargued ho (hargs ▸ hp)]
  | ok pairs =>
    rw [outcome_of_handle hs hp, outcome_of_handle ho (hargs ▸ hp), hpath pairs hp,
      halike.logFailure?_eq hs hp, hlast]

/-- Of the invocation only the configuration and the arguments count, besides its line. -/
theorem outcome_of_same {other : Invocation} (hconfig : other.config = invocation.config)
    (hargs : other.args = invocation.args) (halike : LoggedAlike invocation other scene.files)
    (action : Action) :
    ((handle action other).perform scene).1 = ((handle action invocation).perform scene).1 := by
  cases hs : Settings.read invocation.config with
  | error e => rw [handle_of_misconfigured hs, handle_of_misconfigured (hconfig ▸ hs)]
  | ok settings =>
    exact outcome_of_settings hs (hconfig ▸ hs) hargs halike (fun _ _ => rfl) fun _ => rfl

theorem Immaterial.outcome_eq {other : Invocation} {settings' : Settings}
    (h : Immaterial invocation.args settings settings')
    (hs : Settings.read invocation.config = .ok settings)
    (ho : Settings.read other.config = .ok settings') (hargs : other.args = invocation.args)
    (halike : LoggedAlike invocation other scene.files) (action : Action) :
    ((handle action other).perform scene).1 = ((handle action invocation).perform scene).1 := by
  refine outcome_of_settings hs ho hargs halike (fun pairs hp => ?_) fun output => ?_
  · cases h with
    | code herror => rfl
    | logPath hp' hmem hdebug =>
      cases hp.symm.trans hp'
      unfold Recorder.logPath
      cases hfind : pairs.find? (·.1 = "DEBUG") with
      | some pair => rfl
      | none => simpa [hdebug] using List.find?_eq_none.mp hfind _ hmem
  · cases h with
    | code herror => simp only [conclusion, reportedError, herror, Option.map_none, resultLine]
    | logPath => rfl

/-! ## The operations compared -/

/-- CHECK and DEL take the same steps. -/
theorem handle_del (invocation : Invocation) : handle .del invocation = handle .check invocation :=
  rfl

/-- ADD ends like CHECK, except that it can fail to write its result in the end. -/
theorem outcome_add (invocation : Invocation) (scene : Scene) :
    ((handle .add invocation).perform scene).1 = ((handle .check invocation).perform scene).1 ∨
      ((handle .check invocation).perform scene).1 = .success ∧
        ∃ text, ((handle .add invocation).perform scene).1 = resultFailure text := by
  cases hs : Settings.read invocation.config with
  | error e => exact .inl (by rw [handle_of_misconfigured hs, handle_of_misconfigured hs])
  | ok settings =>
    cases hp : ExtraArgs.parse invocation.args with
    | error e => exact .inl (by rw [handle_of_misargued hs hp, handle_of_misargued hs hp])
    | ok pairs =>
      rw [outcome_of_handle hs hp, outcome_of_handle hs hp]
      cases logFailure? (logPath settings pairs) invocation scene.files with
      | some failure => exact .inl rfl
      | none =>
        simp only [Option.getD_none, conclusion]
        cases reportedError settings with
        | some outcome => exact .inl rfl
        | none =>
          cases (scene.output.write (resultLine settings)).1 with
          | none => exact .inl rfl
          | some text => exact .inr ⟨rfl, text, rfl⟩

/-- With the same configuration and arguments, and with lines that are taken alike, DEL has the same
result as CHECK, and so has ADD unless all that fails is to write its result. -/
theorem result_beside_check {other : Invocation} (hconfig : other.config = invocation.config)
    (hargs : other.args = invocation.args) (halike : LoggedAlike invocation other scene.files)
    (action : Action) :
    (action ≠ .add → ((handle action other).perform scene).1.result =
        ((handle .check invocation).perform scene).1.result) ∧
      (action = .add →
        ((handle action other).perform scene).1.result =
            ((handle .check invocation).perform scene).1.result ∨
          ((handle .check invocation).perform scene).1.result = .ok () ∧
            ∃ text, ((handle action other).perform scene).1.result = .error
              ⟨.handler, "failed to write result", "failed to write result: " ++ text⟩) := by
  rw [outcome_of_same hconfig hargs halike]
  refine ⟨fun hne => ?_, fun hadd => ?_⟩
  · cases action with
    | add => exact absurd rfl hne
    | check => rfl
    | del => rw [handle_del]
  · subst hadd
    rcases outcome_add invocation scene with hsame | ⟨hcheck, text, hfailed⟩
    · exact .inl (congrArg Outcome.result hsame)
    · rw [hcheck, hfailed]
      exact .inr ⟨rfl, text, rfl⟩

/-! ## Dispatches -/

variable {session : Session} {offer : Offer} {about : String}

/-- An operation that reaches the recorder ends in exactly one way.  Where the log takes the lines
alike, immaterial differences of the settings do not change its result, and with the same
configuration and arguments on the same scene CHECK and DEL have the same result; so has ADD, unless
all that fails is to write its result. -/
theorem operation_ends
    (h : (session.dispatch plugin offer about).call = some (action, invocation)) :
    (∀ result files,
      (session.dispatch plugin offer about).result = result ∧
          (session.dispatch plugin offer about).session.files = files ↔
        Ends action invocation session.scene result files) ∧
      ∀ {other : Session} {offer' : Offer} {about' : String} {action' : Action}
        {invocation' : Invocation},
        (other.dispatch plugin offer' about').call = some (action', invocation') →
        other.scene = session.scene → invocation'.args = invocation.args →
        LoggedAlike invocation invocation' session.files →
        (∀ settings settings', Settings.read invocation.config = .ok settings →
          Settings.read invocation'.config = .ok settings' →
          Immaterial invocation.args settings settings' → action' = action →
          (other.dispatch plugin offer' about').result =
            (session.dispatch plugin offer about).result) ∧
        (invocation'.config = invocation.config → action = .check →
          (action' ≠ .add → (other.dispatch plugin offer' about').result =
            (session.dispatch plugin offer about).result) ∧
          (action' = .add →
            (other.dispatch plugin offer' about').result =
                (session.dispatch plugin offer about).result ∨
              (session.dispatch plugin offer about).result = .ok () ∧
                ∃ text, (other.dispatch plugin offer' about').result = .error
                  ⟨.handler, "failed to write result", "failed to write result: " ++ text⟩)) := by
  obtain ⟨hresult, hscene⟩ := Session.dispatch_of_called h
  refine ⟨fun result files => ?_, fun {other _ _ action' invocation'} hother hsame hargs
    halike => ?_⟩
  · have hfiles : (session.dispatch plugin offer about).session.files =
        ((handle action invocation).perform session.scene).2.files := congrArg Scene.files hscene
    rw [hresult, hfiles]
    constructor
    · rintro ⟨rfl, rfl⟩
      exact ends_handle action invocation session.scene
    · exact handle_of_ends
  · have halike : LoggedAlike invocation invocation' session.scene.files := halike
    rw [(Session.dispatch_of_called hother).1, hsame, hresult]
    refine ⟨fun settings settings' hs ho himmaterial haction => ?_, fun hconfig hcheck => ?_⟩
    · subst haction
      exact congrArg Outcome.result (himmaterial.outcome_eq hs ho hargs halike _)
    · subst hcheck
      exact result_beside_check hconfig hargs halike action'

/-- A configuration with the code of an error that is not there, and with a log. -/
def codedBody : Bytes :=
  Text.Utf8.ofString ("\x7b\"name\":\"n\",\"cniVersion\":\"0.4.0\"," ++
    "\"reportErrorCode\":7,\"commandLog\":\"log\"\x7d")

/-- An operation with that configuration, whose arguments select a log in a missing directory. -/
def diverted (action : Action) : Session where
  environment := .ofList
    [("CNI_COMMAND", Text.Utf8.ofString action.name), ("CNI_CONTAINERID", Text.Utf8.ofString "c"),
     ("CNI_NETNS", Text.Utf8.ofString "n"), ("CNI_IFNAME", Text.Utf8.ofString "e"),
     ("CNI_ARGS", Text.Utf8.ofString "DEBUG=gone/log"), ("CNI_PATH", Text.Utf8.ofString "/bin")]
  input := [.bytes codedBody]

/-- The invocation that the recorder is called with. -/
def divertedInvocation (action : Action) : Invocation :=
  ⟨.perform action, "c", "n", "e", "DEBUG=gone/log", "/bin", codedBody⟩

/-- The log in the settings is not tried instead, and the operations end alike. -/
theorem diverted_ends :
    (∃ invocation, ((diverted .check).dispatch plugin (Support.offer ⟨["0.4.0"]⟩) "").call =
        some (.check, invocation)) ∧
      ((diverted .check).dispatch plugin (Support.offer ⟨["0.4.0"]⟩) "").result = .error
        ⟨.handler, "failed to write command log gone/log",
          "failed to write command log gone/log: No such file or directory (os error 2)"⟩ ∧
      ((diverted .check).dispatch plugin (Support.offer ⟨["0.4.0"]⟩) "").session.files = {} ∧
      ((diverted .add).dispatch plugin (Support.offer ⟨["0.4.0"]⟩) "").result =
        ((diverted .check).dispatch plugin (Support.offer ⟨["0.4.0"]⟩) "").result := by
  have hcall (action : Action) :
      ((diverted action).dispatch plugin (Support.offer ⟨["0.4.0"]⟩) "").call =
        some (action, divertedInvocation action) := by
    cases action <;> decide +kernel
  have hread : (Settings.read codedBody).toOption.isSome := by decide +kernel
  have hpairs : ExtraArgs.parse "DEBUG=gone/log" = .ok [("DEBUG", "gone/log")] :=
    Json.ok_of_toOption (by decide +kernel)
  have happend : (diverted .check).files.append "gone/log"
      (Entry.ofInvocation (divertedInvocation .check)).line = (some .notFound, {}) := by
    decide +kernel
  obtain ⟨settings, hsettings⟩ := Option.isSome_iff_exists.mp hread
  have hselects : SelectsPath settings [("DEBUG", "gone/log")] "gone/log" :=
    logPath_eq_some_iff.mp rfl
  obtain ⟨hall, hother⟩ := operation_ends (hcall .check)
  obtain ⟨hresult, hfiles⟩ := (hall _ _).mpr (.unlogged (Json.ok_of_toOption hsettings) hpairs
    hselects (congrArg Prod.fst happend))
  have halike := loggedAlike_of_unlimited (rfl : (diverted .check).files.room = none)
  have hadd := ((hother (hcall .add) rfl rfl (halike _ _)).2 rfl rfl).2 rfl
  refine ⟨⟨_, hcall .check⟩, hresult, hfiles.trans (congrArg Prod.snd happend),
    hadd.resolve_right ?_⟩
  rw [hresult]
  exact nofun

end Recorder
end CniPlugin
