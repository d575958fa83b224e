import CniPlugin.Text.Utf8
/-!
# Standard input

Input arrives in segments.  Reading to the end takes segments until one says that the end is reached
or that reading failed, and passes over interruptions; a later read goes on with what is left.
-/

namespace CniPlugin

/-- What one read can meet. -/
inductive Segment where
  /-- Bytes arrive. -/
  | bytes (content : Bytes)
  /-- The read is interrupted and has to be repeated. -/
  | interrupted
  /-- The read reports the end of the input; later reads may bring more. -/
  | ended
  /-- The read fails. -/
  | failed (text : String)
  deriving DecidableEq, Repr

/-- The segments that are still to come; after them every read reports the end. -/
abbrev Input := List Segment

namespace Input

/-- Reads to the end: the bytes, or the text of the failure, and the segments that are left.  The
bytes before a failure are lost. -/
def readToEnd : Input → Except String Bytes × Input
  | [] => (.ok [], [])
  | .bytes content :: rest =>
    match readToEnd rest with
    | (.ok more, left) => (.ok (content ++ more), left)
    | (.error text, left) => (.error text, left)
  | .interrupted :: rest => readToEnd rest
  | .ended :: rest => (.ok [], rest)
  | .failed text :: rest => (.error text, rest)

/-- The bytes of all segments. -/
def content : Input → Bytes
  | [] => []
  | .bytes content :: rest => content ++ Input.content rest
  | _ :: rest => Input.content rest

end Input
end CniPlugin
