import CniPlugin.Invocation
import CniPlugin.Json.Writer
import CniPlugin.Json.Record
/-!
# Log entries

The recorder logs an invocation as one line of JSON.  A configuration that is not UTF-8 is logged
with replacement characters.
-/

namespace CniPlugin.Recorder

structure Entry where
  command : String
  containerId : String
  netns : String
  ifName : String
  args : String
  path : String
  stdin : String
  deriving DecidableEq, Repr

namespace Entry

/-- The entry for an invocation. -/
def ofInvocation (invocation : Invocation) : Entry where
  command := invocation.command.name
  containerId := invocation.containerId
  netns := invocation.netns
  ifName := invocation.ifName
  args := invocation.args
  path := invocation.path
  stdin := Text.Utf8.lossyString invocation.config

/-! ## Writing -/

def toJson (entry : Entry) : Json :=
  .object
    [("command", .text entry.command),
     ("containerId", .text entry.containerId),
     ("netns", .text entry.netns),
     ("ifName", .text entry.ifName),
     ("args", .text entry.args),
     ("path", .text entry.path),
     ("stdin", .text entry.stdin)]

/-- The entry as a line of the log. -/
def line (entry : Entry) : Bytes := entry.toJson.compact ++ [0x0A]

/-! ## Reading -/

/-- What has been read of an entry. -/
structure Draft where
  command : Option String := none
  containerId : Option String := none
  netns : Option String := none
  ifName : Option String := none
  args : Option String := none
  path : Option String := none
  stdin : Option String := none

def shape : Json.Shape Draft where
  title := "CommandRecord"
  fields :=
    [.of "command" true (·.command) (fun v d => { d with command := some v })
      (Json.typedText .text),
     .of "containerId" true (·.containerId) (fun v d => { d with containerId := some v })
      (Json.typedText .text),
     .of "netns" true (·.netns) (fun v d => { d with netns := some v }) (Json.typedText .text),
     .of "ifName" true (·.ifName) (fun v d => { d with ifName := some v }) (Json.typedText .text),
     .of "args" true (·.args) (fun v d => { d with args := some v }) (Json.typedText .text),
     .of "path" true (·.path) (fun v d => { d with path := some v }) (Json.typedText .text),
     .of "stdin" true (·.stdin) (fun v d => { d with stdin := some v }) (Json.typedText .text)]

/-- The entry of a draft that has every field. -/
def ofDraft (draft : Draft) : Entry where
  command := draft.command.getD ""
  containerId := draft.containerId.getD ""
  netns := draft.netns.getD ""
  ifName := draft.ifName.getD ""
  args := draft.args.getD ""
  path := draft.path.getD ""
  stdin := draft.stdin.getD ""

/-- Reads an entry. -/
def read (body : Bytes) : Except Json.ReadError Entry :=
  ofDraft <$> Json.readDocument (shape.read {}) body

end Entry
end CniPlugin.Recorder
