import CniPlugin.Fault
import CniPlugin.Version
import CniPlugin.Conduct
import CniPlugin.Json.Writer
import CniPlugin.Json.Record
/-!
# Error reports

A fault reaches the runtime as one JSON document on standard output.  The document also names the
version of the protocol; a document that is read may leave out that version and the details.
-/

namespace CniPlugin

structure Report where
  cniVersion : String
  fault : Fault
  deriving DecidableEq, Repr

namespace Report

/-- The report of a fault by this library. -/
def ofFault (fault : Fault) : Report := ⟨Version.current, fault⟩

/-! ## Writing -/

/-- The members in the order in which they are written. -/
def toJson (report : Report) : Json :=
  .object
    [("cniVersion", .text report.cniVersion),
     ("code", .ofWord report.fault.kind.code),
     ("msg", .text report.fault.message),
     ("details", .text report.fault.details)]

/-- The report on one line. -/
def compact (report : Report) : Bytes := report.toJson.compact

/-- The report as it is printed: one member per line, and a line feed at the end. -/
def printed (report : Report) : Bytes := report.toJson.indented ++ [0x0A]

/-! ## Reading -/

/-- What has been read of a report. -/
structure Draft where
  cniVersion : Option String := none
  kind : Option Fault.Kind := none
  message : Option String := none
  details : Option String := none

/-- A code that some kind has. -/
def typedKind : Json.Reader Fault.Kind := do
  let code ← Json.typedWord
  match Fault.Kind.ofCode? code with
  | some kind => pure kind
  | none => Json.failFloating (.unknownCode code.toNat)

def shape : Json.Shape Draft where
  title := "ErrorDocument"
  fields :=
    [.of "cniVersion" false (·.cniVersion) (fun v d => { d with cniVersion := some v })
      (Json.typedText .text),
     .of "code" true (·.kind) (fun v d => { d with kind := some v }) typedKind,
     .of "msg" true (·.message) (fun v d => { d with message := some v }) (Json.typedText .text),
     .of "details" false (·.details) (fun v d => { d with details := some v })
      (Json.typedText .text)]

/-- The report of a draft that has the required fields. -/
def ofDraft (draft : Draft) : Report where
  cniVersion := draft.cniVersion.getD ""
  fault :=
    { kind := draft.kind.getD .internal
      message := draft.message.getD ""
      details := draft.details.getD "" }

/-- Reads a report. -/
def read (body : Bytes) : Except Json.ReadError Report :=
  ofDraft <$> Json.readDocument (shape.read {}) body

end Report

namespace Fault

/-- Prints the report of a fault as one write and flushes: the text of the failure, if it fails. -/
def print (fault : Fault) : Conduct (Option String) :=
  .writeAndFlush (Report.ofFault fault).printed

/-- Reads the fault of a report. -/
def read (body : Bytes) : Except Json.ReadError Fault := (·.fault) <$> Report.read body

end Fault
end CniPlugin
