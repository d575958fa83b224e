import CniPlugin.Fault
import CniPlugin.Json.Writer
import CniPlugin.Json.Free
import CniPlugin.Json.Record
/-!
# Network configurations

A network configuration is a JSON object with a name and a version; everything else in it belongs to
the plugin and is kept as it is.  Null counts as absent, for a member and for the whole body.

The body is read twice: once as a whole, to see that it is well formed and names the network, and
once for the declared version alone, passing over everything else.
-/

namespace CniPlugin

structure NetworkConfig where
  name : Option String
  cniVersion : Option String
  /-- The other members, sorted by key. -/
  rest : List (String × Json)

namespace NetworkConfig

/-! ## Writing -/

/-- A text, or null. -/
def textOrNull : Option String → Json
  | some text => .text text
  | none => .null

/-- Name and version first, then the other members. -/
def toJson (config : NetworkConfig) : Json :=
  .object (("name", textOrNull config.name) :: ("cniVersion", textOrNull config.cniVersion) ::
    config.rest)

/-! ## Reading the whole -/

/-- What has been read of a configuration. -/
structure Draft where
  name : Option (Option String) := none
  cniVersion : Option (Option String) := none
  rest : List (String × Json) := []

def shape : Json.Shape Draft where
  title := "ConfigDocument"
  fields :=
    [.of "name" false (·.name) (fun v d => { d with name := some v })
      (Json.orNull (Json.typedText .text)),
     .of "cniVersion" false (·.cniVersion) (fun v d => { d with cniVersion := some v })
      (Json.orNull (Json.typedText .text))]

/-- Keeps a member that belongs to the plugin. -/
def keep : Json.Stray Draft := fun key draft => do
  Json.colon
  let value ← Json.value (Json.depthLimit - 1)
  pure { draft with rest := Json.insert key value draft.rest }

def ofDraft (draft : Draft) : NetworkConfig where
  name := draft.name.getD none
  cniVersion := draft.cniVersion.getD none
  rest := draft.rest

/-- Reads a configuration, or null. -/
def read (body : Bytes) : Except Json.ReadError (Option NetworkConfig) :=
  (Option.map ofDraft) <$> Json.readDocument (Json.orNull (shape.readObject keep {})) body

/-- Reads a configuration; the fault if it is malformed. -/
def parse (body : Bytes) : Except Fault (Option NetworkConfig) :=
  match read body with
  | .ok config => .ok config
  | .error e => .error (.plain .decoding ("error unmarshall network config: " ++ e.message))

/-- The network has no name. -/
def unnamed : Fault := .plain .networkConfig "missing network name"

/-- Reads a configuration that names its network. -/
def validate (body : Bytes) : Except Fault NetworkConfig :=
  match parse body with
  | .error fault => .error fault
  | .ok none => .error unnamed
  | .ok (some config) =>
    match config.name with
    | none => .error unnamed
    | some name => if name = "" then .error unnamed else .ok config

/-! ## Reading the version alone -/

/-- What has been read of the declared version. -/
structure VersionDraft where
  cniVersion : Option String := none

def versionShape : Json.Shape VersionDraft where
  title := "VersionField"
  fields :=
    [.of "cniVersion" true (·.cniVersion) (fun v d => { d with cniVersion := some v })
      (Json.typedText .text)]

/-- The version that a configuration declares; it is there and not empty. -/
def declaredVersion (body : Bytes) : Except Fault String :=
  match Json.readDocument (versionShape.read {}) body with
  | .error e => .error (.plain .decoding ("decoding version from network config: " ++ e.message))
  | .ok draft =>
    let version := draft.cniVersion.getD ""
    if version = "" then
      .error (.plain .decoding "decoding version from network config: empty cniVersion")
    else .ok version

end NetworkConfig
end CniPlugin
