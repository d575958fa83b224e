import CniPlugin.Text.Utf8
/-!
# Output streams

An output stream keeps what was written to it.  It may have room for so many bytes only; a write
that does not fit stores the part that does and then fails.

Result: `write_eq_take` (whatever the room, the stored bytes are a first part of the bytes written).
-/

namespace CniPlugin

/-- What a full stream does with a write. -/
inductive Refusal where
  /-- It fails with a text. -/
  | fails (text : String)
  /-- It takes no byte and reports no failure. -/
  | takesNothing
  deriving DecidableEq, Repr

/-- The text of the failure. -/
def Refusal.text : Refusal → String
  | .fails text => text
  | .takesNothing => "failed to write whole buffer"

structure Output where
  /-- Everything stored so far. -/
  content : Bytes := []
  /-- How many bytes the stream takes in total, if there is a limit. -/
  limit : Option Nat := none
  refusal : Refusal := .takesNothing
  /-- The text with which every flush fails, if it fails. -/
  flushFailure : Option String := none
  deriving DecidableEq, Repr

namespace Output

/-- How many of so many bytes still fit. -/
def fitting (out : Output) (wanted : Nat) : Nat :=
  match out.limit with
  | none => wanted
  | some limit => min wanted (limit - out.content.length)

/-- Writes all bytes: the text of the failure if they do not all fit. -/
def write (out : Output) (bytes : Bytes) : Option String × Output :=
  let stored := { out with content := out.content ++ bytes.take (out.fitting bytes.length) }
  if out.fitting bytes.length < bytes.length then (some out.refusal.text, stored)
  else (none, stored)

/-- Flushes: the text of the failure, if it fails. -/
def flush (out : Output) : Option String := out.flushFailure

/-- Whatever the room, the stored bytes are a first part of the bytes written. -/
theorem write_eq_take (out : Output) (bytes : Bytes) :
    ∃ n, (out.write bytes).2 = { out with content := out.content ++ bytes.take n } := by
  refine ⟨out.fitting bytes.length, ?_⟩
  simp only [write]
  split <;> rfl

/-- Without a limit every write succeeds. -/
theorem write_of_unlimited {out : Output} (h : out.limit = none) (bytes : Bytes) :
    out.write bytes = (none, { out with content := out.content ++ bytes }) := by
  simp [write, fitting, h]

end Output
end CniPlugin
