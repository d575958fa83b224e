import CniPlugin.Fault
/-!
# Commands

The runtime asks for one of three network operations, which the plugin handles, or for the versions
that the plugin supports.
-/

namespace CniPlugin

/-- A network operation. -/
inductive Action where
  | add
  | check
  | del
  deriving DecidableEq, Repr

inductive Command where
  | perform (action : Action)
  | version
  deriving DecidableEq, Repr

def Action.name : Action → String
  | .add => "ADD"
  | .check => "CHECK"
  | .del => "DEL"

namespace Command

def name : Command → String
  | .perform action => action.name
  | .version => "VERSION"

/-- The command with a name, to the letter. -/
def ofName? (name : String) : Option Command :=
  if name = "ADD" then some (.perform .add)
  else if name = "CHECK" then some (.perform .check)
  else if name = "DEL" then some (.perform .del)
  else if name = "VERSION" then some .version
  else none

/-- Reads a command. -/
def parse (name : String) : Except Fault Command :=
  match ofName? name with
  | some command => .ok command
  | none => .error (.plain .unknownCommand ("unknown CNI_COMMAND: " ++ name))

theorem ofName?_name (command : Command) : ofName? command.name = some command := by
  rcases command with (_ | _ | _) | _ <;> decide

end Command
end CniPlugin
