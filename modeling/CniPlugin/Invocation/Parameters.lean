import CniPlugin.Invocation.Command
import CniPlugin.Text.Split
import CniPlugin.Text.Utf8
/-!
# Parameters

An invocation is described by six environment variables.  Each is looked up once, in the order of
the table; unset and empty are the same, but a value that is not UTF-8 ends the lookups.
-/

namespace CniPlugin

inductive Parameter where
  | command
  | containerId
  | netns
  | ifName
  | args
  | path
  deriving DecidableEq, Repr

namespace Parameter

/-- Every parameter, in the order in which they are looked up and reported. -/
def all : List Parameter := [.command, .containerId, .netns, .ifName, .args, .path]

/-- The environment variable of a parameter. -/
def variableName : Parameter → String
  | .command => "CNI_COMMAND"
  | .containerId => "CNI_CONTAINERID"
  | .netns => "CNI_NETNS"
  | .ifName => "CNI_IFNAME"
  | .args => "CNI_ARGS"
  | .path => "CNI_PATH"

/-- Whether an operation needs the parameter. -/
def neededBy : Action → Parameter → Bool
  | _, .args => false
  | .del, .netns => false
  | _, _ => true

/-- Whether the parameter has to be there for a command, which may be unknown. -/
def required (command : Option Command) (parameter : Parameter) : Bool :=
  parameter = .command ||
    match command with
    | some (.perform action) => parameter.neededBy action
    | _ => false

end Parameter

/-- What an environment answers to a lookup, given the names that were looked up before. -/
abbrev Environment := List String → String → Option Bytes

/-- The environment with fixed values. -/
def Environment.ofList (values : List (String × Bytes)) : Environment :=
  fun _ name => values.lookup name

/-- The name and the value of an entry of an environment, divided by an equality sign. -/
def Environment.entry? (entry : Bytes) : Option (String × Bytes) :=
  match Text.cut 0x3D entry with
  | none => none
  | some (name, value) => (Text.Utf8.toString? name).map (·, value)

/-- The values in a block of entries, each of which ends with a zero byte. -/
def Environment.values (block : Bytes) : List (String × Bytes) :=
  (Text.split 0x00 block).filterMap entry?

/-- The values of the parameters, empty where a variable is not set. -/
abbrev Parameters := Parameter → String

namespace Parameters

def empty : Parameters := fun _ => ""

def set (parameters : Parameters) (parameter : Parameter) (value : String) : Parameters :=
  fun p => if p = parameter then value else parameters p

/-- A variable holds something that is not text. -/
def notText (parameter : Parameter) : Fault :=
  .plain .decoding ("env variable " ++ parameter.variableName ++ " is not valid UTF-8")

/-- Looks up some of the parameters; the names looked up are added to the earlier ones. -/
def captureFrom (environment : Environment) :
    List Parameter → List String → Parameters → Except Fault Parameters × List String
  | [], lookups, parameters => (.ok parameters, lookups)
  | p :: ps, lookups, parameters =>
    match environment lookups p.variableName with
    | none => captureFrom environment ps (lookups ++ [p.variableName]) parameters
    | some bytes =>
      match Text.Utf8.toString? bytes with
      | none => (.error (notText p), lookups ++ [p.variableName])
      | some value =>
        captureFrom environment ps (lookups ++ [p.variableName]) (parameters.set p value)

/-- Looks up every parameter. -/
def capture (environment : Environment) (lookups : List String) :
    Except Fault Parameters × List String :=
  captureFrom environment Parameter.all lookups empty

/-- The required parameters that are empty. -/
def missing (parameters : Parameters) : List Parameter :=
  Parameter.all.filter fun p =>
    parameters p = "" && p.required (Command.ofName? (parameters .command))

/-- The fault for parameters that are missing names all of them. -/
def missingFault (parameters : List Parameter) : Fault :=
  .plain .missingVariables
    ("required env variables [" ++ ",".intercalate (parameters.map (·.variableName)) ++ "] missing")

end Parameters
end CniPlugin
