import CniPlugin.Plugin
import CniPlugin.Recorder.Settings
import CniPlugin.Recorder.Entry
/-!
# The recorder

The reference plugin configures nothing.  It logs each operation to a file, if it is told to, and
then ends as its settings say.  A `DEBUG` pair among the extra arguments takes the place of the log
path in the settings.
-/

namespace CniPlugin.Recorder

/-- The versions that the recorder supports if it is not told otherwise. -/
def defaultVersions : List String := ["0.3.0", "0.3.1", "0.4.0"]

/-- The path of the log: the value of the first `DEBUG` pair, or else what the settings say. -/
def logPath (settings : Settings) (pairs : List (String × String)) : Option String :=
  match pairs.find? (·.1 = "DEBUG") with
  | some pair => some pair.2
  | none => settings.logPath

/-- The log could not be written. -/
def logFailure (path text : String) : Outcome :=
  .failure (.text ("failed to write command log " ++ path)) [.text text]

/-- The result could not be written. -/
def resultFailure (text : String) : Outcome :=
  .failure (.text "failed to write result") [.text text]

/-- Logs the invocation, if there is a path, and goes on. -/
def record (path : Option String) (invocation : Invocation) (rest : Conduct Outcome) :
    Conduct Outcome :=
  match path with
  | none => rest
  | some path =>
    .append path (Entry.ofInvocation invocation).line fun
      | some text => .done (logFailure path text)
      | none => rest

/-- The error that the settings ask for. -/
def reportedError (settings : Settings) : Option Outcome :=
  settings.error.map fun message =>
    match settings.errorCode with
    | some code => .failure (.fault (Fault.ofCode code message "")) []
    | none => .failure (.text message) []

/-- The result of ADD as one line. -/
def resultLine (settings : Settings) : Bytes :=
  let result := settings.result.getD (.object [("cniVersion", .text settings.cniVersion)])
  result.compact ++ [0x0A]

/-- Ends as the settings say. -/
def conclude (action : Action) (settings : Settings) : Conduct Outcome :=
  match reportedError settings with
  | some outcome => .done outcome
  | none =>
    match action with
    | .add =>
      .write (resultLine settings) fun
        | some text => .done (resultFailure text)
        | none => .done .success
    | .check | .del => .done .success

/-- Handles an operation. -/
def handle (action : Action) (invocation : Invocation) : Conduct Outcome :=
  match Settings.parse invocation.config with
  | .error fault => .done (.failure (.fault fault) [])
  | .ok settings =>
    match invocation.argPairs with
    | .error fault => .done (.failure (.fault fault) [])
    | .ok pairs => record (logPath settings pairs) invocation (conclude action settings)

/-- The recorder as a plugin. -/
def plugin : Plugin := ⟨handle⟩

end CniPlugin.Recorder
