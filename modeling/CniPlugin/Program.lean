import CniPlugin.Session
import CniPlugin.Program.Options
/-!
# The program

The program serves one invocation with the recorder.  It starts only if every version it is to
support is one.  After that it dispatches the invocation and reports the fault itself.
-/

namespace CniPlugin.Program

/-- The name of the program. -/
def name : String := "cni-noop"

/-- The version of the program. -/
def version : String := "0.1.0"

/-- What the program says about itself when it is run without a command. -/
def about : String := "CNI noop plugin v" ++ version

/-- The line that a request for the version prints. -/
def versionLine : String := name ++ " " ++ version ++ "\n"

/-- How the program is called.  The line stands in for the whole help text and for the messages about
words that are not understood, which are left out. -/
def usageLine : String := "Usage: " ++ name ++ " [OPTIONS]\n"

/-- The exit status when the words of the command line are not understood. -/
def exitUsage : UInt32 := 2

/-- What a run of the program leaves on its streams, and its exit status. -/
structure Ending where
  status : UInt32
  output : Bytes := []
  diagnostics : Bytes := []
  deriving DecidableEq, Repr

/-- How a run of the program ends, and the files after it. -/
structure Ended extends Ending where
  files : Files
  deriving DecidableEq, Repr

/-- The first version that is none, and why. -/
def invalidVersion? : List String → Option (String × Version.Malformed)
  | [] => none
  | text :: texts =>
    match Version.parse text with
    | .error e => some (text, e)
    | .ok _ => invalidVersion? texts

/-- The line for a version that is none. -/
def invalidVersionLine (text : String) (e : Version.Malformed) : String :=
  "Error: Invalid supported version: " ++ text ++ ": " ++ e.message ++ "\n"

/-- The end of a run that the command line stops.  Of the help text and of a message about the words
there is only `usageLine`; the rest of what is printed there is left out. -/
def Halt.ending : Halt → Ending
  | .usage => { status := exitUsage, diagnostics := Text.Utf8.ofString usageLine }
  | .help => { status := exitSuccess, output := Text.Utf8.ofString usageLine }
  | .version => { status := exitSuccess, output := Text.Utf8.ofString versionLine }

/-- What the program is to support, or how it ends without serving an invocation. -/
def prepare (words : List Bytes) (environment : String → Option Bytes) : Except Ending Support :=
  match Options.resolve words environment with
  | .error halt => .error halt.ending
  | .ok options =>
    match invalidVersion? options.versions with
    | some (text, e) =>
      .error
        { status := exitFailure
          diagnostics := Text.Utf8.ofString (invalidVersionLine text e) }
    | none => .ok ⟨options.versions⟩

/-- The end of a run that served an invocation. -/
def Ended.ofSession (status : UInt32) (session : Session) : Ended where
  status := status
  output := session.output.content
  diagnostics := session.diagnostics.content
  files := session.files

/-- Serves one invocation.  The program prints the fault that it ends with, if there is one, and
exits with a failure. -/
def serve (support : Support) (environment : Environment) (input : Input) (files : Files) :
    Ended :=
  let session : Session := { environment, input, files }
  let dispatched := session.dispatch Recorder.plugin support.offer about
  match dispatched.result with
  | .ok () => .ofSession exitSuccess dispatched.session
  | .error fault => .ofSession exitFailure (dispatched.session.perform fault.print).2

/-- Runs the program. -/
def run (words : List Bytes) (values : List (String × Bytes)) (input : Input) (files : Files) :
    Ended :=
  match prepare words (fun name => values.lookup name) with
  | .error ending => { ending with files }
  | .ok support => serve support (Environment.ofList values) input files

end CniPlugin.Program
