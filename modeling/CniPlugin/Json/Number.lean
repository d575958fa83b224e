import CniPlugin.Text.Utf8
import CniPlugin.Decimal.Shortest
/-!
# JSON numbers

A number is an integer between `-2 ^ 63` and `2 ^ 64 - 1`, or a binary64 number: everything with a
fraction or an exponent, every integer outside that range, and `-0`.

A numeral is the written form.  Its digits are read into a 64-bit significand while they fit; what
no longer fits only counts for the power of ten.  The significand is then scaled by one
multiplication or division, so the value of a long numeral may differ in the last place from the
nearest binary64 number.
-/

namespace CniPlugin.Json

inductive Number where
  /-- An integer that fits in 64 bits, with a sign if it is negative. -/
  | integer (value : Int)
      (bounded : -9223372036854775808 ≤ value ∧ value < 18446744073709551616)
  | float (value : Float)
  deriving DecidableEq

/-- Numbers from `0.00001` up to below `10 ^ 16` are written by position. -/
def numberLayout : Decimal.Layout := ⟨-5, 15⟩

/-- The text of a number. -/
def Number.text : Number → List Char
  | .integer value _ =>
    if value < 0 then '-' :: Nat.toDigits 10 value.natAbs else Nat.toDigits 10 value.natAbs
  | .float value => floatText numberLayout value

/-- The written form of a number: digits before and after the point (none if there is no point),
and the digits of the exponent with its sign. -/
structure Numeral where
  negative : Bool
  whole : Bytes
  fraction : Bytes
  exponent : Option (Bool × Bytes)
  deriving DecidableEq, Repr

/-- The value of a digit. -/
def digitValue (b : UInt8) : Nat := b.toNat - 0x30

/-- Reads digits on after `significand` while the result fits in 64 bits; counts the digits that
are left. -/
def absorb (significand : Nat) : Bytes → Nat × Nat
  | [] => (significand, 0)
  | d :: ds =>
    if significand * 10 + digitValue d < UInt64.size then
      absorb (significand * 10 + digitValue d) ds
    else (significand, (d :: ds).length)

/-- The first exponent that is too large. -/
def exponentBound : Nat := 2147483648

/-- Reads the digits of an exponent on after `value`; if a digit makes the result too large, the
number of digits after it. -/
def exponentValue (value : Nat) : Bytes → Except Nat Nat
  | [] => .ok value
  | d :: ds =>
    if value * 10 + digitValue d < exponentBound then
      exponentValue (value * 10 + digitValue d) ds
    else .error ds.length

/-- A power of ten with a binary64 value: the nearest one. -/
def powerOfTen (n : Nat) : Float := Float.ofScientific 1 false n

/-- Divides by `10 ^ n`, by `10 ^ 308` at a time.  Three such steps bring every significand to
zero. -/
def scaleDown (x : Float) (n : Nat) : Float :=
  let steps := (n - 1) / 308
  Nat.repeat (· / powerOfTen 308) (min 3 steps) x / powerOfTen (n - 308 * steps)

/-- The significand times a power of ten, unless it is too large. -/
def scaled (significand : Nat) (power : Int) : Option Float :=
  let x := (UInt64.ofNat significand).toFloat
  if power < 0 then some (scaleDown x power.natAbs)
  else if power ≤ 308 then
    let y := x * powerOfTen power.natAbs
    if y.isInf then none else some y
  else if significand = 0 then some x else none

/-- The number with the sign in front. -/
def Number.ofFloat (negative : Bool) (x : Float) : Number :=
  .float (if negative then -x else x)

/-- The number of a numeral without fraction and exponent whose digits all fit. -/
def Number.ofSignificand (negative : Bool) (significand : Nat) : Number :=
  let value : Int := if negative then -significand else significand
  if h : ¬(negative ∧ significand = 0) ∧
      -9223372036854775808 ≤ value ∧ value < 18446744073709551616 then .integer value h.2
  else .ofFloat negative (UInt64.ofNat significand).toFloat

/-- The value of a numeral.  If it is out of range, how many bytes of the numeral were still unread
when that showed. -/
def Numeral.value (n : Numeral) : Except Nat Number :=
  let (start, dropped) := absorb 0 n.whole
  if dropped = 0 && n.fraction.isEmpty && n.exponent.isNone then
    .ok (Number.ofSignificand n.negative start)
  else
    let (significand, left) := absorb start n.fraction
    let shift : Int := dropped - (n.fraction.length - left : Nat)
    let finish (power : Int) : Except Nat Number :=
      match scaled significand power with
      | some x => .ok (.ofFloat n.negative x)
      | none => .error 0
    match n.exponent with
    | none => finish shift
    | some (negativeExponent, digits) =>
      match exponentValue 0 digits with
      | .ok e => finish (if negativeExponent then shift - e else shift + e)
      | .error unread =>
        if significand ≠ 0 && !negativeExponent then .error unread
        else .ok (.ofFloat n.negative 0.0)

example : (Number.float 1.5e-7).text = "1.5e-7".toList := by decide +kernel
example : (Number.float 1e15).text = "1000000000000000.0".toList := by decide +kernel

end CniPlugin.Json
