import CniPlugin.Fault
import CniPlugin.Version.Support
/-!
# Compatibility

Whether a plugin can serve the version that a network configuration declares.  ADD and DEL ask for
one of the supported versions, to the letter.  CHECK exists since a certain version: the declared
version must not be older than that, and the plugin has to support a version that is not older than
the declared one.
-/

namespace CniPlugin.Support

/-- The details of an incompatibility name the declared version and the whole list. -/
def incompatibleDetails (support : Support) (declared : String) : String :=
  "config is " ++ Text.quoted declared ++ ", plugin supports " ++ Text.quotedList support.versions

/-- A text that should be a version is none. -/
def malformedVersion (e : Version.Malformed) : Fault := .plain .decoding e.message

/-- The rule for ADD and DEL: the declared version is in the list. -/
def accept (support : Support) (declared : String) : Except Fault Unit :=
  if support.supports declared then .ok ()
  else
    .error ⟨.incompatibleVersion, "incompatible CNI versions",
      support.incompatibleDetails declared⟩

/-- The first version of a list that is not older than the declared one. -/
def firstNotOlder (declared : String) : List String → Except Version.Malformed (Option String)
  | [] => .ok none
  | version :: versions =>
    match Version.atLeast version declared with
    | .error e => .error e
    | .ok true => .ok (some version)
    | .ok false => firstNotOlder declared versions

/-- The supported version that serves CHECK: the first in the plugin's order that is not older than
the declared one. -/
def select (support : Support) (declared : String) : Except Fault String :=
  match firstNotOlder declared support.versions with
  | .error e => .error (malformedVersion e)
  | .ok (some version) => .ok version
  | .ok none =>
    .error ⟨.incompatibleVersion, "plugin version does not allow CHECK",
      support.incompatibleDetails declared⟩

/-- The rule for CHECK: the declared version is not older than CHECK itself, and some supported
version serves it. -/
def selectForCheck (support : Support) (declared : String) : Except Fault String :=
  match Version.atLeast declared Version.checkFloor with
  | .error e => .error (malformedVersion e)
  | .ok true => support.select declared
  | .ok false =>
    .error ⟨.incompatibleVersion, "config version does not allow CHECK",
      "config is " ++ Text.quoted declared ++ ", CHECK requires at least " ++
        Text.quoted Version.checkFloor⟩

example : (⟨["0.3.0", "0.4.0"]⟩ : Support).select "0.3.1" = .ok "0.4.0" := by rfl
example : (⟨["1.0.0", "0.4.0"]⟩ : Support).selectForCheck "0.4" = .ok "1.0.0" := by rfl

end CniPlugin.Support
