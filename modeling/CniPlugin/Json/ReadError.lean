import CniPlugin.Json.Number
import CniPlugin.Text.Quoted
/-!
# Why a JSON text is refused

A refusal is a cause and a place.  The place is found in two steps: a reader only knows how many
bytes lie ahead of it, and line and column are worked out at the end from the whole input.

Causes that come from the shape of a value and not from a byte (a missing member, a wrong length)
have no place where they arise.  They float, together with the bytes ahead, until the value that
encloses them gives them a place.
-/

namespace CniPlugin.Json

/-- What was found where something else was expected. -/
inductive Found where
  | null
  | bool (value : Bool)
  | number (value : Number)
  | text (value : String)
  | list
  | object
  deriving DecidableEq

/-- What a typed read expects. -/
inductive Expected where
  | text
  | path
  | word
  | list
  | record (title : String)
  deriving DecidableEq

inductive Cause where
  | endOfValue
  | endOfList
  | endOfObject
  | endOfText
  | expectedValue
  | expectedWord
  | expectedColon
  | expectedListEnd
  | expectedObjectEnd
  | expectedKey
  | trailingComma
  | trailingBytes
  | invalidNumber
  | numberOutOfRange
  | invalidEscape
  | loneSurrogate
  | unpairedSurrogate
  | controlCharacter
  | malformedText
  | tooDeep
  | wrongType (found : Found) (expected : Expected)
  | wrongValue (found : Int) (expected : Expected)
  | wrongLength (found : Nat) (title : String) (fields : Nat)
  | missingField (key : String)
  | duplicateField (key : String)
  | unknownCode (code : Nat)
  deriving DecidableEq

/-- The text of a number. -/
def Number.string (n : Number) : String := String.ofList n.text

def Found.message : Found → String
  | .null => "null"
  | .bool true => "boolean `true`"
  | .bool false => "boolean `false`"
  | .number (.integer n h) => "integer `" ++ (Number.integer n h).string ++ "`"
  | .number (.float x) => "floating point `" ++ (Number.float x).string ++ "`"
  | .text s => "string " ++ Text.quoted s
  | .list => "sequence"
  | .object => "map"

def Expected.message : Expected → String
  | .text => "a string"
  | .path => "path string"
  | .word => "u32"
  | .list => "a sequence"
  | .record title => "struct " ++ title

def Cause.message : Cause → String
  | .endOfValue => "EOF while parsing a value"
  | .endOfList => "EOF while parsing a list"
  | .endOfObject => "EOF while parsing an object"
  | .endOfText => "EOF while parsing a string"
  | .expectedValue => "expected value"
  | .expectedWord => "expected ident"
  | .expectedColon => "expected `:`"
  | .expectedListEnd => "expected `,` or `]`"
  | .expectedObjectEnd => "expected `,` or `\x7d`"
  | .expectedKey => "key must be a string"
  | .trailingComma => "trailing comma"
  | .trailingBytes => "trailing characters"
  | .invalidNumber => "invalid number"
  | .numberOutOfRange => "number out of range"
  | .invalidEscape => "invalid escape"
  | .loneSurrogate => "lone leading surrogate in hex escape"
  | .unpairedSurrogate => "unexpected end of hex escape"
  | .controlCharacter => "control character (\\u0000-\\u001F) found while parsing a string"
  | .malformedText => "invalid unicode code point"
  | .tooDeep => "recursion limit exceeded"
  | .wrongType found expected =>
    "invalid type: " ++ found.message ++ ", expected " ++ expected.message
  | .wrongValue found expected =>
    "invalid value: integer `" ++ toString found ++ "`, expected " ++ expected.message
  | .wrongLength found title fields =>
    "invalid length " ++ toString found ++ ", expected struct " ++ title ++ " with " ++
      (if fields = 1 then "1 element" else toString fields ++ " elements")
  | .missingField key => "missing field `" ++ key ++ "`"
  | .duplicateField key => "duplicate field `" ++ key ++ "`"
  | .unknownCode code => "Unknown protocol error code: " ++ toString code

/-- How a reader fails. -/
inductive Failure where
  /-- At the place that lies before the last `ahead` bytes of the input. -/
  | placed (cause : Cause) (ahead : Nat)
  /-- Somewhere in the value being read, of which `rest` is still ahead. -/
  | floating (cause : Cause) (rest : Bytes)
  deriving DecidableEq

/-- Gives a floating failure a place: before what `close` leaves of the bytes ahead. -/
def Failure.settle (close : Bytes → Bytes) : Failure → Failure
  | .floating cause rest => .placed cause (close rest).length
  | failure => failure

/-- A refusal: the cause, the line counted from one, and the column, which is the number of bytes of
that line before the place. -/
structure ReadError where
  cause : Cause
  line : Nat
  column : Nat
  deriving DecidableEq

/-- The line and column after the bytes of a text. -/
def endOf (line column : Nat) : Bytes → Nat × Nat
  | [] => (line, column)
  | b :: bs => if b = 0x0A then endOf (line + 1) 0 bs else endOf line (column + 1) bs

/-- The place `ahead` bytes before the end of the input. -/
def ReadError.at (cause : Cause) (input : Bytes) (ahead : Nat) : ReadError :=
  let (line, column) := endOf 1 0 (input.take (input.length - ahead))
  ⟨cause, line, column⟩

/-- The refusal of an input for a failure of its reader. -/
def Failure.locate (input : Bytes) : Failure → ReadError
  | .placed cause ahead => .at cause input ahead
  | .floating cause rest => .at cause input rest.length

def ReadError.message (e : ReadError) : String :=
  e.cause.message ++ " at line " ++ toString e.line ++ " column " ++ toString e.column

example : (ReadError.at .expectedValue [0x7B, 0x0A, 0x20, 0x5D] 0).message =
    "expected value at line 2 column 2" := by decide +kernel

end CniPlugin.Json
