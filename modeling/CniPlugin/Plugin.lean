import CniPlugin.Conduct
import CniPlugin.Invocation
/-!
# Plugins

A plugin handles the three network operations.  However its handler ends, what is reported to the
runtime is success or a fault: a fault that the handler raised is reported as it is, any other error
is wrapped once, and so is a crash.
-/

namespace CniPlugin

/-- An error that a handler raised, or one that caused it. -/
inductive Complaint where
  | text (message : String)
  | fault (fault : Fault)
  deriving DecidableEq, Repr

def Complaint.message : Complaint → String
  | .text message => message
  | .fault raised => raised.text

/-- How a handler ends. -/
inductive Outcome where
  | success
  /-- An error, and the errors that caused it, nearest first. -/
  | failure (error : Complaint) (causes : List Complaint)
  /-- The handler breaks off, perhaps with a message. -/
  | crash (message : Option String)
  deriving DecidableEq, Repr

namespace Outcome

/-- The messages of an error and its causes, one after the other. -/
def chain (error : Complaint) (causes : List Complaint) : String :=
  ": ".intercalate ((error :: causes).map Complaint.message)

/-- What is reported for the end of a handler. -/
def result : Outcome → Except Fault Unit
  | .success => .ok ()
  | .failure (.fault fault) _ => .error fault
  | .failure error causes => .error ⟨.handler, error.message, chain error causes⟩
  | .crash message =>
    .error ⟨.handler, message.getD "unknown panic payload", "plugin handler panicked"⟩

end Outcome

/-- A handler for each network operation. -/
structure Plugin where
  handle : Action → Invocation → Conduct Outcome

end CniPlugin
