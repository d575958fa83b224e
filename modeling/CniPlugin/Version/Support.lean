import CniPlugin.Version
import CniPlugin.Conduct
import CniPlugin.Json.Writer
import CniPlugin.Json.Record
/-!
# Supported versions

A plugin lists the versions it supports in its order of preference.  The answer to VERSION carries
that list, and a runtime reads it back.
-/

namespace CniPlugin

/-- The versions a plugin supports, in its order of preference. -/
structure Support where
  versions : List String
  deriving DecidableEq, Repr

namespace Support

/-- Whether the list has a version, to the letter. -/
def supports (support : Support) (version : String) : Bool := support.versions.contains version

/-! ## Writing -/

/-- The answer to VERSION. -/
def toJson (support : Support) : Json :=
  .object
    [("cniVersion", .text Version.current),
     ("supportedVersions", .list (support.versions.map .text))]

/-- The answer as one line. -/
def answer (support : Support) : Bytes := support.toJson.compact ++ [0x0A]

/-- Writes the answer and flushes: the text of the failure, if it fails. -/
def encode (support : Support) : Conduct (Option String) := .writeAndFlush support.answer

/-! ## Reading -/

/-- Why bytes are no answer to VERSION. -/
inductive Unreadable where
  | json (error : Json.ReadError)
  | noVersions
  deriving DecidableEq

def Unreadable.message : Unreadable → String
  | .json error => "decoding version info: " ++ error.message
  | .noVersions => "decoding version info: missing field supportedVersions"

/-- What has been read of an answer. -/
structure Draft where
  cniVersion : Option String := none
  versions : Option (List String) := none

def shape : Json.Shape Draft where
  title := "VersionDocument"
  fields :=
    [.of "cniVersion" false (·.cniVersion) (fun v d => { d with cniVersion := some v })
      (Json.typedText .text),
     .of "supportedVersions" false (·.versions) (fun v d => { d with versions := some v })
      Json.typedTexts]

/-- Reads an answer; it has to list a version. -/
def decode (body : Bytes) : Except Unreadable Support :=
  match Json.readDocument (shape.read {}) body with
  | .error e => .error (.json e)
  | .ok draft =>
    match draft.versions.getD [] with
    | [] => .error .noVersions
    | versions => .ok ⟨versions⟩

end Support

/-- What a plugin tells about itself: the versions it supports, and how the answer to VERSION is
written, which ends with the text of a failure if it fails. -/
structure Offer where
  support : Support
  encode : Conduct (Option String)

/-- The offer that answers VERSION with the list of supported versions. -/
def Support.offer (support : Support) : Offer := ⟨support, support.encode⟩

end CniPlugin
