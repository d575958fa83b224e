import CniPlugin.Plugin
import CniPlugin.NetworkConfig
import CniPlugin.Fault.Report
import CniPlugin.Version.Compatibility
/-!
# Sessions

A session serves invocations one after the other from the same environment and streams.  Each is
first planned, which looks up variables and may read standard input, and then carried out, which is
all that may write:

* without a command, and if there is an about text, that text goes to the diagnostics;
* VERSION writes the answer of the offer;
* an operation is handed to the plugin once its configuration is valid and its version compatible.

A fault met on the way is the result; `run` reports it on the output stream.
-/

namespace CniPlugin

structure Session where
  environment : Environment
  /-- The variables looked up so far, in order. -/
  lookups : List String := []
  input : Input := []
  output : Output := {}
  diagnostics : Output := {}
  files : Files := {}

/-- What is to be done for an invocation. -/
inductive Plan where
  | about
  | answer
  | call (action : Action) (invocation : Invocation)
  deriving DecidableEq, Repr

/-- Whether the declared version can be served. -/
def Support.serve (support : Support) (action : Action) (declared : String) : Except Fault Unit :=
  match action with
  | .check =>
    match support.selectForCheck declared with
    | .ok _ => .ok ()
    | .error fault => .error fault
  | .add | .del => support.accept declared

/-- The plan for an invocation: for an operation, the configuration has to be valid and its version
compatible. -/
def Invocation.plan (invocation : Invocation) (support : Support) : Except Fault Plan :=
  match invocation.command with
  | .version => .ok .answer
  | .perform action =>
    match NetworkConfig.validate invocation.config with
    | .error fault => .error fault
    | .ok _ =>
      match NetworkConfig.declaredVersion invocation.config with
      | .error fault => .error fault
      | .ok declared =>
        match support.serve action declared with
        | .error fault => .error fault
        | .ok () => .ok (.call action invocation)

namespace Session

/-- What a conduct acts on. -/
def scene (session : Session) : Scene := ⟨session.output, session.files⟩

/-- Performs a conduct. -/
def perform {α : Type} (session : Session) (conduct : Conduct α) : α × Session :=
  let (result, scene) := conduct.perform session.scene
  (result, { session with output := scene.output, files := scene.files })

/-- Plans the next invocation. -/
def plan (session : Session) (support : Support) (about : String) :
    Except Fault Plan × Session :=
  match Parameters.capture session.environment session.lookups with
  | (.error fault, lookups) => (.error fault, { session with lookups })
  | (.ok parameters, lookups) =>
    if parameters .command = "" ∧ about ≠ "" then (.ok .about, { session with lookups })
    else
      match parameters.invocation session.input with
      | (.error fault, input) => (.error fault, { session with lookups, input })
      | (.ok invocation, input) => (invocation.plan support, { session with lookups, input })

/-- The result of a dispatch, the session after it, and the handler call that was made. -/
structure Dispatched where
  result : Except Fault Unit
  session : Session
  call : Option (Action × Invocation) := none

/-- What is reported for the end of a VERSION answer. -/
def answerResult : Option String → Except Fault Unit
  | none => .ok ()
  | some text => .error (.plain .encoding text)

/-- Carries out a plan. -/
def carryOut (session : Session) (plugin : Plugin) (offer : Offer) (about : String) :
    Plan → Dispatched
  | .about =>
    let text := Text.Utf8.ofString (about ++ "\n")
    ⟨.ok (), { session with diagnostics := (session.diagnostics.write text).2 }, none⟩
  | .answer =>
    let (failure, session) := session.perform offer.encode
    ⟨answerResult failure, session, none⟩
  | .call action invocation =>
    let (outcome, session) := session.perform (plugin.handle action invocation)
    ⟨outcome.result, session, some (action, invocation)⟩

/-- Serves the next invocation. -/
def dispatch (session : Session) (plugin : Plugin) (offer : Offer) (about : String) : Dispatched :=
  match session.plan offer.support about with
  | (.error fault, session) => ⟨.error fault, session, none⟩
  | (.ok plan, session) => session.carryOut plugin offer about plan

/-- Writes the report of a fault; a failure of the stream changes nothing else. -/
def report (session : Session) : Except Fault Unit → Session
  | .ok () => session
  | .error fault => (session.perform fault.print).2

/-- Serves the next invocation and reports a fault, if there is one. -/
def run (session : Session) (plugin : Plugin) (offer : Offer) (about : String) : Dispatched :=
  let dispatched := session.dispatch plugin offer about
  { dispatched with session := dispatched.session.report dispatched.result }

/-- The exit status for a result. -/
def Dispatched.status (dispatched : Dispatched) : UInt32 := exitStatus dispatched.result

theorem Dispatched.status_eq_one_iff {dispatched : Dispatched} :
    dispatched.status = 1 ↔ ∃ fault, dispatched.result = .error fault := by
  rw [status]
  cases dispatched.result with
  | ok _ => simp [exitStatus, exitSuccess]
  | error fault => simp [exitStatus, exitFailure]

theorem Dispatched.status_eq_zero_iff {dispatched : Dispatched} :
    dispatched.status = 0 ↔ dispatched.result = .ok () := by
  rw [status]
  cases dispatched.result with
  | ok _ => simp [exitStatus, exitSuccess]
  | error fault => simp [exitStatus, exitFailure]

end Session
end CniPlugin
