import CniPlugin.Program
/-!
# The command line

The program on the arguments, the environment, the streams and the files of its process.  What is
done is decided by `Program.prepare`, `Session.plan` and the conduct of the recorder; here their
inputs are fetched and their writes are made.
-/

namespace CniPlugin.CommandLine

/-- The text of a failure with a number and a description. -/
def numbered (code : UInt32) (details : String) : String :=
  details ++ " (os error " ++ toString code.toNat ++ ")"

/-- The text of a failure of the process. -/
def failureText : IO.Error → String
  | .alreadyExists _ code details
  | .invalidArgument _ code details
  | .permissionDenied _ code details
  | .resourceExhausted _ code details
  | .inappropriateType _ code details
  | .noSuchThing _ code details
  | .interrupted _ code details
  | .noFileOrDirectory _ code details
  | .otherError code details
  | .resourceBusy code details
  | .resourceVanished code details
  | .unsupportedOperation code details
  | .hardwareFault code details
  | .unsatisfiedConstraints code details
  | .illegalOperation code details
  | .protocolError code details
  | .timeExpired code details => numbered code details
  | .unexpectedEof => "unexpected end of file"
  | .userError text => text

/-- The text of the failure of an action, if it fails. -/
def attempt (action : IO Unit) : IO (Option String) := do
  try
    action
    return none
  catch e => return some (failureText e)

/-- Writes bytes to a stream and flushes it. -/
def send (stream : IO.FS.Stream) (bytes : Bytes) : IO Unit := do
  stream.write ⟨bytes.toArray⟩
  stream.flush

/-- Appends bytes to a file, which is created if it is missing. -/
def appendTo (path : String) (bytes : Bytes) : IO Unit :=
  IO.FS.withFile path .append fun file => do
    file.write ⟨bytes.toArray⟩
    file.flush

/-- Carries out what a handler does. -/
def perform {α : Type} : Conduct α → IO α
  | .done result => return result
  | .write bytes next => do
    let failure ← attempt do send (← IO.getStdout) bytes
    perform (next failure)
  | .flush next => do
    let failure ← attempt do (← IO.getStdout).flush
    perform (next failure)
  | .append path bytes next => do
    let failure ←
      if '\x00' ∈ path.toList then pure (some FileFault.nulInPath.message)
      else attempt (appendTo path bytes)
    perform (next failure)

/-- The environment of the process. -/
def environment : IO (List (String × Bytes)) :=
  return Environment.values (← IO.FS.readBinFile "/proc/self/environ").toList

/-- Standard input, if the invocation has to be completed by it. -/
def standardInput (environment : Environment) : IO Input := do
  match (Parameters.capture environment []).1 with
  | .error _ => return []
  | .ok parameters =>
    if parameters.awaitsInput then
      try
        return [.bytes (← (← IO.getStdin).readBinToEnd).toList]
      catch e => return [.failed (failureText e)]
    else return []

/-- Carries out a plan. -/
def carryOut (support : Support) : Plan → IO (Except Fault Unit)
  | .about => do
    let text := Text.Utf8.ofString (Program.about ++ "\n")
    discard (attempt do send (← IO.getStderr) text)
    return .ok ()
  | .answer => return Session.answerResult (← perform support.offer.encode)
  | .call action invocation => return (← perform (Recorder.handle action invocation)).result

/-- Serves the invocation that the process was started for. -/
def serve (support : Support) (environment : Environment) : IO UInt32 := do
  let session : Session := { environment, input := ← standardInput environment }
  let result ←
    match (session.plan support Program.about).1 with
    | .error fault => pure (.error fault)
    | .ok plan => carryOut support plan
  match result with
  | .error fault => discard (perform fault.print)
  | .ok () => pure ()
  return exitStatus result

/-- Leaves what a run without an invocation leaves. -/
def leave (ending : Program.Ending) : IO UInt32 := do
  discard (attempt do send (← IO.getStdout) ending.output)
  discard (attempt do send (← IO.getStderr) ending.diagnostics)
  return ending.status

/-- Runs the program. -/
def run (words : List String) : IO UInt32 := do
  let values ← environment
  match Program.prepare (words.map Text.Utf8.ofString) (fun name => values.lookup name) with
  | .error ending => leave ending
  | .ok support => serve support (Environment.ofList values)

end CniPlugin.CommandLine

/-- Runs the program on its process. -/
def main (words : List String) : IO UInt32 := CniPlugin.CommandLine.run words
