import CniPlugin.Text.Split
import CniPlugin.Text.Quoted
/-!
# Protocol versions

A version is written as one to three numbers with points between them; numbers that are left out
are zero.  Versions are ordered by their numbers, never by their text.
-/

namespace CniPlugin

/-- Major, minor and patch number. -/
structure Version where
  major : UInt64
  minor : UInt64
  patch : UInt64
  deriving DecidableEq, Repr

namespace Version

/-- The version this library speaks. -/
def current : String := "0.4.0"

/-- The oldest version of a network configuration for which CHECK is defined. -/
def checkFloor : String := "0.4.0"

/-- Every version released up to the current one. -/
def released : List String := ["0.1.0", "0.2.0", "0.3.0", "0.3.1", "0.4.0"]

/-- Why a text is no version. -/
inductive Malformed where
  | empty (text : String)
  | tooManyParts (text : String)
  | invalidPart (text part : String)
  deriving DecidableEq, Repr

def Malformed.message : Malformed → String
  | .empty text => "invalid version " ++ Text.quoted text ++ ": empty"
  | .tooManyParts text => "invalid version " ++ Text.quoted text ++ ": too many parts"
  | .invalidPart text part =>
    "invalid version " ++ Text.quoted text ++ ": failed to parse " ++ Text.quoted part

/-! ## Reading -/

/-- Whether a part is written as a number: one or more ASCII digits, leading zeros allowed. -/
def isNumeral (part : List Char) : Bool := !part.isEmpty && part.all Char.isDigit

/-- The number that a part stands for, if it fits in 64 bits. -/
def number? (part : List Char) : Option UInt64 :=
  if isNumeral part then
    let n := Nat.ofDigitChars 10 part 0
    if n < UInt64.size then some (UInt64.ofNat n) else none
  else none

/-- The numbers of the parts, or the first part that is none. -/
def numbers : List (List Char) → Except (List Char) (List UInt64)
  | [] => .ok []
  | part :: parts =>
    match number? part with
    | none => .error part
    | some n =>
      match numbers parts with
      | .error bad => .error bad
      | .ok ns => .ok (n :: ns)

/-- The version of its first three numbers. -/
def ofNumbers (ns : List UInt64) : Version := ⟨ns.getD 0 0, ns.getD 1 0, ns.getD 2 0⟩

/-- Reads a version. -/
def parse (text : String) : Except Malformed Version :=
  if text.toList = [] then .error (.empty text)
  else
    let parts := Text.split '.' text.toList
    if 3 < parts.length then .error (.tooManyParts text)
    else
      match numbers parts with
      | .error part => .error (.invalidPart text (String.ofList part))
      | .ok ns => .ok (ofNumbers ns)

/-! ## Writing -/

/-- All three numbers, without leading zeros. -/
def chars (v : Version) : List Char :=
  Nat.toDigits 10 v.major.toNat ++ '.' :: (Nat.toDigits 10 v.minor.toNat ++
    '.' :: Nat.toDigits 10 v.patch.toNat)

def text (v : Version) : String := String.ofList v.chars

/-! ## Order -/

/-- Compares major numbers first, patch numbers last. -/
def compare (v w : Version) : Ordering :=
  (Ord.compare v.major w.major).then
    ((Ord.compare v.minor w.minor).then (Ord.compare v.patch w.patch))

/-- Whether the first version is not older than the second. -/
def notOlder (v w : Version) : Bool := compare v w != .lt

/-- Whether the version `a` stands for is not older than the one `b` stands for. -/
def atLeast (a b : String) : Except Malformed Bool :=
  match parse a with
  | .error e => .error e
  | .ok v =>
    match parse b with
    | .error e => .error e
    | .ok w => .ok (v.notOlder w)

/-- The versions of a list of texts, or the first text that is none. -/
def parseAll : List String → Except Malformed (List Version)
  | [] => .ok []
  | text :: texts =>
    match parse text with
    | .error e => .error e
    | .ok v =>
      match parseAll texts with
      | .error e => .error e
      | .ok vs => .ok (v :: vs)

/-- The versions from the oldest to the newest. -/
def sort (vs : List Version) : List Version := vs.mergeSort fun v w => w.notOlder v

example : parse "0.4" = .ok ⟨0, 4, 0⟩ := by rfl
example : parse "1.x.3.4" = .error (.tooManyParts "1.x.3.4") := by rfl
example : parse "18446744073709551616" =
    .error (.invalidPart "18446744073709551616" "18446744073709551616") := by rfl
example : atLeast "0.10.0" "0.9.0" = .ok true := by rfl

end Version
end CniPlugin
