import CniPlugin.Invocation.Parameters
import CniPlugin.Invocation.ExtraArgs
import CniPlugin.Stream.Input
/-!
# Invocations

An invocation is what the runtime asks for: a command, its parameters, and the network configuration
from standard input.  It exists only if every parameter the command needs is there.
-/

namespace CniPlugin

structure Invocation where
  command : Command
  containerId : String
  netns : String
  ifName : String
  args : String
  path : String
  /-- The network configuration; empty for VERSION. -/
  config : Bytes
  deriving DecidableEq, Repr

/-- A text, unless it is empty. -/
def nonEmpty? (text : String) : Option String := if text = "" then none else some text

namespace Invocation

/-- The network namespace, if there is one. -/
def netns? (invocation : Invocation) : Option String := nonEmpty? invocation.netns

/-- The extra arguments as they were given, if there are any. -/
def args? (invocation : Invocation) : Option String := nonEmpty? invocation.args

/-- The pairs of the extra arguments. -/
def argPairs (invocation : Invocation) : Except Fault (List (String × String)) :=
  match ExtraArgs.parse invocation.args with
  | .ok pairs => .ok pairs
  | .error e => .error (.plain .networkConfig e.message)

/-- The directories of the search path. -/
def searchDirectories (invocation : Invocation) : List String :=
  (Text.splitString ':' invocation.path).filter (· ≠ "")

end Invocation

/-- The invocation with some parameters. -/
def Parameters.toInvocation (parameters : Parameters) (command : Command) (config : Bytes) :
    Invocation where
  command := command
  containerId := parameters .containerId
  netns := parameters .netns
  ifName := parameters .ifName
  args := parameters .args
  path := parameters .path
  config := config

/-- The command of parameters of which none is missing. -/
def Parameters.command (parameters : Parameters) : Except Fault Command :=
  match parameters.missing with
  | [] => Command.parse (parameters .command)
  | missing => .error (missingFault missing)

/-- Standard input could not be read. -/
def Invocation.unreadInput (text : String) : Fault :=
  .plain .inputOutput ("error reading from stdin: " ++ text)

/-- Completes the parameters by the network configuration.  The input is read only when the command
is an operation and none of its parameters is missing. -/
def Parameters.invocation (parameters : Parameters) (input : Input) :
    Except Fault Invocation × Input :=
  match parameters.command with
  | .error fault => (.error fault, input)
  | .ok .version => (.ok (parameters.toInvocation .version []), input)
  | .ok (.perform action) =>
    match input.readToEnd with
    | (.error text, left) => (.error (Invocation.unreadInput text), left)
    | (.ok config, left) => (.ok (parameters.toInvocation (.perform action) config), left)

/-- Whether the parameters have to be completed by standard input. -/
def Parameters.awaitsInput (parameters : Parameters) : Bool :=
  match parameters.command with
  | .ok (.perform _) => true
  | _ => false

/-- Parameters that await no input leave it alone and are completed in the same way by any other. -/
theorem Parameters.invocation_of_not_awaitsInput {parameters : Parameters}
    (h : parameters.awaitsInput = false) (input other : Input) :
    parameters.invocation input = ((parameters.invocation other).1, input) := by
  unfold awaitsInput at h
  unfold invocation
  split at h
  · simp at h
  · next hc =>
    cases hp : parameters.command with
    | error fault => rfl
    | ok command =>
      cases command with
      | version => rfl
      | perform action => exact absurd hp (hc action)

/-- Reads an invocation from the environment and standard input.  Also returns the names looked up
and what is left of the input. -/
def Invocation.extract (environment : Environment) (lookups : List String) (input : Input) :
    Except Fault Invocation × List String × Input :=
  match Parameters.capture environment lookups with
  | (.error fault, lookups) => (.error fault, lookups, input)
  | (.ok parameters, lookups) =>
    let (invocation, left) := parameters.invocation input
    (invocation, lookups, left)

end CniPlugin
