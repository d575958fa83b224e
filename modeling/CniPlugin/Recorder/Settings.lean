import CniPlugin.Fault
import CniPlugin.Json.Free
import CniPlugin.Json.Record
/-!
# Settings of the recorder

What the network configuration tells the recorder to do: the result to print, the error to report
and its code, and the file to log to.  Null counts as absent.
-/

namespace CniPlugin.Recorder

structure Settings where
  name : String
  cniVersion : String
  /-- Printed by ADD in place of the usual result. -/
  result : Option Json
  /-- The message of the error with which every operation ends. -/
  error : Option String
  /-- The code of that error; without one it is an error of the handler. -/
  errorCode : Option UInt32
  logPath : Option String

namespace Settings

/-- What has been read of the settings. -/
structure Draft where
  name : Option String := none
  cniVersion : Option String := none
  result : Option (Option Json) := none
  error : Option (Option String) := none
  errorCode : Option (Option UInt32) := none
  logPath : Option (Option String) := none

def shape : Json.Shape Draft where
  title := "NoopConfig"
  fields :=
    [.of "name" true (·.name) (fun v d => { d with name := some v }) (Json.typedText .text),
     .of "cniVersion" true (·.cniVersion) (fun v d => { d with cniVersion := some v })
      (Json.typedText .text),
     .of "reportResult" false (·.result) (fun v d => { d with result := some v })
      (Json.orNull (Json.value (Json.depthLimit - 1))),
     .of "reportError" false (·.error) (fun v d => { d with error := some v })
      (Json.orNull (Json.typedText .text)),
     .of "reportErrorCode" false (·.errorCode) (fun v d => { d with errorCode := some v })
      (Json.orNull Json.typedWord),
     .of "commandLog" false (·.logPath) (fun v d => { d with logPath := some v })
      (Json.orNull (Json.typedText .path))]

/-- The settings of a draft that has the required fields. -/
def ofDraft (draft : Draft) : Settings where
  name := draft.name.getD ""
  cniVersion := draft.cniVersion.getD ""
  result := draft.result.getD none
  error := draft.error.getD none
  errorCode := draft.errorCode.getD none
  logPath := draft.logPath.getD none

/-- Reads settings. -/
def read (body : Bytes) : Except Json.ReadError Settings :=
  ofDraft <$> Json.readDocument (shape.read {}) body

/-- Reads settings; the fault if they are malformed. -/
def parse (body : Bytes) : Except Fault Settings :=
  match read body with
  | .ok settings => .ok settings
  | .error e => .error (.plain .decoding ("failed to load noop config: " ++ e.message))

end Settings
end CniPlugin.Recorder
