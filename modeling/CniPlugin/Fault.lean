/-!
# Protocol faults

Everything that a plugin reports to the runtime as an error is a fault: a kind from a closed set, a
message and details.  The codes of the kinds are fixed for good; runtimes use them to tell faults
that are worth a retry from those that are not.

Result: `ofCode?_code` (the code tells the kind).
-/

namespace CniPlugin

namespace Fault

inductive Kind where
  | missingVariables
  | inputOutput
  | decoding
  | encoding
  | networkConfig
  | incompatibleVersion
  | unknownCommand
  | handler
  /-- Everything outside the other kinds. -/
  | internal
  deriving DecidableEq, Repr

namespace Kind

/-- Every kind, in the order of the codes. -/
def all : List Kind :=
  [.missingVariables, .inputOutput, .decoding, .encoding, .networkConfig, .incompatibleVersion,
    .unknownCommand, .handler, .internal]

/-- The code of a kind in an error report. -/
def code : Kind → UInt32
  | .missingVariables => 1
  | .inputOutput => 2
  | .decoding => 3
  | .encoding => 4
  | .networkConfig => 5
  | .incompatibleVersion => 6
  | .unknownCommand => 7
  | .handler => 8
  | .internal => 999

def name : Kind → String
  | .missingVariables => "missing_environment_variables"
  | .inputOutput => "failed_io"
  | .decoding => "failed_decode"
  | .encoding => "failed_encode"
  | .networkConfig => "invalid_network_config"
  | .incompatibleVersion => "incompatible_version"
  | .unknownCommand => "unknown_operation"
  | .handler => "failed_handler_call"
  | .internal => "internal"

/-- The kind with a code. -/
def ofCode? (code : UInt32) : Option Kind := all.find? (·.code = code)

theorem ofCode?_code (kind : Kind) : ofCode? kind.code = some kind := by
  cases kind <;> decide

end Kind
end Fault

structure Fault where
  kind : Fault.Kind
  message : String
  details : String
  deriving DecidableEq, Repr

namespace Fault

/-- A fault without details. -/
def plain (kind : Kind) (message : String) : Fault := ⟨kind, message, ""⟩

/-- The fault with a code; a code that no kind has counts as internal. -/
def ofCode (code : UInt32) (message details : String) : Fault :=
  ⟨(Kind.ofCode? code).getD .internal, message, details⟩

/-- The message, and the details after it if there are any. -/
def text (fault : Fault) : String :=
  if fault.details = "" then fault.message else fault.message ++ "; " ++ fault.details

theorem ofCode_code (fault : Fault) :
    ofCode fault.kind.code fault.message fault.details = fault := by
  simp [ofCode, Kind.ofCode?_code]

end Fault

/-- The exit status of a run that reported no fault. -/
def exitSuccess : UInt32 := 0

/-- The exit status of a run that reported a fault. -/
def exitFailure : UInt32 := 1

/-- The exit status for the result of a dispatch. -/
def exitStatus : Except Fault Unit → UInt32
  | .ok () => exitSuccess
  | .error _ => exitFailure

end CniPlugin
