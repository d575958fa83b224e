import CniPlugin.Program
import CniPlugin.Proofs.HandlerGate
/-!
# What the program does once its options are known

The program checks the versions that it is to support before it does anything else.  If one of them
is none, it stops there; otherwise it does what a session does in which the recorder is run with
these versions.  So a program that has started meets no supported version that is none when it
selects one for CHECK.

Results:
1. `invalidVersion?_of_firstInvalid`, `invalidVersion?_of_allVersions`: what the check finds.
2. `serve_eq_run`: serving an invocation is running it in a session.
3. `Support.incompatible_of_refuses`: among versions, CHECK refuses one only as incompatible.
4. `run_of_resolve`: all of this for the program with its words and its environment.
-/

namespace CniPlugin

/-! ## The check of the versions -/

namespace Program

/-- Every entry is a version. -/
def AllVersions (versions : List String) : Prop :=
  ∀ entry ∈ versions, ∃ v, Version.parse entry = .ok v

/-- The first entry that is no version, and why it is none. -/
def FirstInvalid (versions : List String) (text : String) (e : Version.Malformed) : Prop :=
  ∃ before after, versions = before ++ text :: after ∧ AllVersions before ∧
    Version.parse text = .error e

theorem invalidVersion?_of_firstInvalid {versions : List String} {text : String}
    {e : Version.Malformed} (h : FirstInvalid versions text e) :
    invalidVersion? versions = some (text, e) := by
  obtain ⟨before, after, rfl, hbefore, he⟩ := h
  induction before with
  | nil => rw [List.nil_append, invalidVersion?, he]
  | cons entry before ih =>
    obtain ⟨v, hv⟩ := hbefore entry List.mem_cons_self
    rw [List.cons_append, invalidVersion?, hv]
    exact ih fun other hm => hbefore other (List.mem_cons_of_mem entry hm)

theorem invalidVersion?_of_allVersions {versions : List String} (h : AllVersions versions) :
    invalidVersion? versions = none := by
  induction versions with
  | nil => rfl
  | cons entry versions ih =>
    obtain ⟨v, hv⟩ := h entry List.mem_cons_self
    rw [invalidVersion?, hv]
    exact ih fun other hm => h other (List.mem_cons_of_mem entry hm)

/-- Where not every entry is a version, one of them is the first that is none. -/
theorem exists_firstInvalid {versions : List String} (h : ¬ AllVersions versions) :
    ∃ text e, FirstInvalid versions text e := by
  induction versions with
  | nil => exact absurd (fun entry hm => absurd hm List.not_mem_nil) h
  | cons entry versions ih =>
    cases hv : Version.parse entry with
    | error e => exact ⟨entry, e, [], versions, rfl, fun _ hm => absurd hm List.not_mem_nil, hv⟩
    | ok v =>
      have hrest : ¬ AllVersions versions := fun hall => h fun other hm => by
        rcases List.mem_cons.mp hm with rfl | hm
        · exact ⟨v, hv⟩
        · exact hall other hm
      obtain ⟨text, e, before, after, rfl, hbefore, he⟩ := ih hrest
      refine ⟨text, e, entry :: before, after, rfl, fun other hm => ?_, he⟩
      rcases List.mem_cons.mp hm with rfl | hm
      · exact ⟨v, hv⟩
      · exact hbefore other hm

/-! ## Serving -/

/-- The session of a program that has been started with some values in its environment. -/
def session (values : List (String × Bytes)) (input : Input) (files : Files) : Session where
  environment := .ofList values
  input := input
  files := files

/-- The program reports a fault as a session does. -/
theorem serve_eq_run (support : Support) (values : List (String × Bytes)) (input : Input)
    (files : Files) :
    serve support (.ofList values) input files =
      .ofSession ((session values input files).run Recorder.plugin support.offer about).status
        ((session values input files).run Recorder.plugin support.offer about).session := by
  unfold serve
  rw [Session.Dispatched.status, Session.run]
  dsimp only [session]
  split
  · next h => rw [h]; rfl
  · next h => rw [h]; rfl

end Program

/-! ## CHECK among versions -/

/-- Where the declared version and every supported one are versions, CHECK refuses one only as
incompatible. -/
theorem Support.incompatible_of_refuses {support : Support} {declared : String} {v : Version}
    {fault : Fault} (hall : Program.AllVersions support.versions)
    (hdeclared : Version.parse declared = .ok v) (h : support.Refuses declared .check fault) :
    fault.kind = .incompatibleVersion := by
  cases h with
  | unlisted => rfl
  | malformed he =>
    rw [hdeclared] at he
    cases he
  | tooOld => rfl
  | malformedEntry _ _ hl _ he =>
    obtain ⟨w, hw⟩ := hall _ (by rw [hl]; exact List.mem_append_right _ List.mem_cons_self)
    rw [hw] at he
    cases he
  | outdated => rfl

/-- So a valid CHECK of a version is handed to the plugin or fails as incompatible. -/
theorem Session.check_of_allVersions {session : Session} {support : Support}
    {parameters : Parameters} {config : Bytes} {document : NetworkConfig} {declared : String}
    {v : Version} (hall : Program.AllVersions support.versions)
    (asks : session.Asks .check parameters) (hd : ∃ left, session.input.Delivers config left)
    (hvalid : NetworkConfig.validate config = .ok document)
    (hdeclared : NetworkConfig.declaredVersion config = .ok declared)
    (hv : Version.parse declared = .ok v) (plugin : Plugin) (about : String) :
    (session.dispatch plugin support.offer about).call =
        some (.check, parameters.toInvocation (.perform .check) config) ∨
      ∃ fault, (session.dispatch plugin support.offer about).result = .error fault ∧
        fault.kind = .incompatibleVersion := by
  obtain ⟨left, hd⟩ := hd
  have hplan := plan_of_validated asks hd hvalid support.offer.support about
  rw [hdeclared] at hplan
  rcases support.offer.support.serve_spec .check declared with ⟨hs, -⟩ | ⟨fault, hs, hrefuses⟩
  · simp only [hs] at hplan
    exact .inl (dispatch_of_call hplan plugin).1
  · simp only [hs] at hplan
    refine .inr ⟨fault, ?_, Support.incompatible_of_refuses hall hv hrefuses⟩
    rw [dispatch_of_error hplan]

/-! ## Starting -/

namespace Program

/-- Whatever the words and the environment are, as long as they set the program to something, and
whatever the input and the files are: if one of the versions is none, the program says so of the
first one, with the reason, and does nothing else; otherwise what it leaves is what a session
leaves in which the recorder is run with these versions.  There a CHECK with a valid configuration
that declares a version never fails because some text is no version. -/
theorem run_of_resolve {words : List Bytes} {values : List (String × Bytes)} {options : Options}
    (h : Options.resolve words (fun name => values.lookup name) = .ok options) (input : Input)
    (files : Files) :
    (¬ AllVersions options.versions → ∃ text e, FirstInvalid options.versions text e ∧
      run words values input files =
        { status := 1
          output := []
          diagnostics := Text.Utf8.ofString
            ("Error: Invalid supported version: " ++ text ++ ": " ++ e.message ++ "\n")
          files := files }) ∧
    (AllVersions options.versions →
      run words values input files =
          { status := ((session values input files).run Recorder.plugin
              (Support.offer ⟨options.versions⟩) about).status
            output := ((session values input files).run Recorder.plugin
              (Support.offer ⟨options.versions⟩) about).session.output.content
            diagnostics := ((session values input files).run Recorder.plugin
              (Support.offer ⟨options.versions⟩) about).session.diagnostics.content
            files := ((session values input files).run Recorder.plugin
              (Support.offer ⟨options.versions⟩) about).session.files } ∧
        ∀ parameters config document declared v,
          (session values input files).Asks .check parameters →
          (∃ left, input.Delivers config left) →
          NetworkConfig.validate config = .ok document →
          NetworkConfig.declaredVersion config = .ok declared →
          Version.parse declared = .ok v →
          ((session values input files).dispatch Recorder.plugin
                (Support.offer ⟨options.versions⟩) about).call =
              some (.check, parameters.toInvocation (.perform .check) config) ∨
            ∃ fault, ((session values input files).dispatch Recorder.plugin
                (Support.offer ⟨options.versions⟩) about).result = .error fault ∧
              fault.kind = .incompatibleVersion) := by
  constructor
  · intro hsome
    obtain ⟨text, e, hfirst⟩ := exists_firstInvalid hsome
    refine ⟨text, e, hfirst, ?_⟩
    simp only [run, prepare, h, invalidVersion?_of_firstInvalid hfirst]
    rfl
  · intro hall
    refine ⟨?_, fun parameters config document declared v asks hd hvalid hdeclared hv => ?_⟩
    · simp only [run, prepare, h, invalidVersion?_of_allVersions hall]
      exact serve_eq_run ⟨options.versions⟩ values input files
    · have hversions : AllVersions (⟨options.versions⟩ : Support).versions := hall
      exact Session.check_of_allVersions hversions asks hd hvalid hdeclared hv Recorder.plugin about

/-- The environment of a CHECK. -/
def checking : List (String × Bytes) :=
  [("CNI_COMMAND", Text.Utf8.ofString "CHECK"), ("CNI_CONTAINERID", Text.Utf8.ofString "c"),
   ("CNI_NETNS", Text.Utf8.ofString "n"), ("CNI_IFNAME", Text.Utf8.ofString "e"),
   ("CNI_PATH", Text.Utf8.ofString "/bin")]

/-- Its configuration. -/
def configuration : Bytes := Text.Utf8.ofString "\x7b\"name\":\"n\",\"cniVersion\":\"0.5\"\x7d"

theorem checking_asks :
    ∃ parameters, (session checking [.bytes configuration] {}).Asks .check parameters := by
  refine ⟨((((Parameters.empty.set .command "CHECK").set .containerId "c").set .netns "n").set
    .ifName "e").set .path "/bin", fun p => ?_, rfl, rfl⟩
  cases p <;> decide

/-- With a version that is none the CHECK is not looked at, and with versions only it is handed to
the recorder or fails as incompatible. -/
theorem checking_starts :
    (∃ options, Options.resolve [Text.Utf8.ofString "--supported-versions=1.0,x,y"]
          (fun name => checking.lookup name) = .ok options ∧ ¬ AllVersions options.versions ∧
        run [Text.Utf8.ofString "--supported-versions=1.0,x,y"] checking [.bytes configuration] {} =
          { status := 1
            diagnostics := Text.Utf8.ofString
              "Error: Invalid supported version: x: invalid version \"x\": failed to parse \"x\"\n"
            files := {} }) ∧
      ∃ options, Options.resolve [Text.Utf8.ofString "--supported-versions=1.0,0.4.0"]
          (fun name => checking.lookup name) = .ok options ∧ AllVersions options.versions ∧
        ∃ parameters : Parameters,
          ((session checking [.bytes configuration] {}).dispatch Recorder.plugin
                (Support.offer ⟨options.versions⟩) about).call =
              some (.check, parameters.toInvocation (.perform .check) configuration) ∨
            ∃ fault, ((session checking [.bytes configuration] {}).dispatch Recorder.plugin
                (Support.offer ⟨options.versions⟩) about).result = .error fault ∧
              fault.kind = .incompatibleVersion := by
  constructor
  · have hresolve : Options.resolve [Text.Utf8.ofString "--supported-versions=1.0,x,y"]
        (fun name => checking.lookup name) = .ok ⟨"warn", ["1.0", "x", "y"]⟩ :=
      Json.ok_of_toOption (by decide +kernel)
    have hinvalid : Version.parse "x" = .error (.invalidPart "x" "x") := by rfl
    have hsome : ¬ AllVersions ["1.0", "x", "y"] := by
      intro hall
      obtain ⟨v, hv⟩ := hall "x" (by decide)
      rw [hinvalid] at hv
      cases hv
    obtain ⟨text, e, hfirst, hrun⟩ :=
      (run_of_resolve hresolve [.bytes configuration] {}).1 hsome
    have hfound : invalidVersion? ["1.0", "x", "y"] = some ("x", .invalidPart "x" "x") := by
      decide +kernel
    rw [invalidVersion?_of_firstInvalid hfirst] at hfound
    cases hfound
    exact ⟨_, hresolve, hsome, hrun⟩
  · have hresolve : Options.resolve [Text.Utf8.ofString "--supported-versions=1.0,0.4.0"]
        (fun name => checking.lookup name) = .ok ⟨"warn", ["1.0", "0.4.0"]⟩ :=
      Json.ok_of_toOption (by decide +kernel)
    have hall : AllVersions ["1.0", "0.4.0"] := by
      intro entry hm
      rcases List.mem_cons.mp hm with rfl | hm
      · exact ⟨⟨1, 0, 0⟩, rfl⟩
      · rw [List.mem_singleton.mp hm]
        exact ⟨⟨0, 4, 0⟩, rfl⟩
    obtain ⟨parameters, asks⟩ := checking_asks
    have hd : ∃ left, Input.Delivers [.bytes configuration] configuration left :=
      ⟨[], Input.readToEnd_eq_ok_iff.mp (by rfl)⟩
    have hnamed : (NetworkConfig.validate configuration).toOption.isSome = true := by
      decide +kernel
    obtain ⟨document, hvalid⟩ := Option.isSome_iff_exists.mp hnamed
    have hdeclared : (NetworkConfig.declaredVersion configuration).toOption = some "0.5" := by
      decide +kernel
    have hcheck := ((run_of_resolve hresolve [.bytes configuration] {}).2 hall).2 parameters
      configuration document "0.5" ⟨0, 5, 0⟩ asks hd (Json.ok_of_toOption hvalid)
      (Json.ok_of_toOption hdeclared) rfl
    exact ⟨_, hresolve, hall, parameters, hcheck⟩

end Program
end CniPlugin
