/-!
# Shortest decimal of a binary number

A binary64 number stands for an interval of reals, those that round to it.  Its decimal text has the
fewest digits that fall into that interval; among those with equally many digits it is the nearest,
and of two equally near ones the even one.

All arithmetic is exact, on natural numbers.
-/

namespace CniPlugin

/-- A positive binary number `mantissa · 2 ^ exponent`. -/
structure Binary where
  mantissa : Nat
  exponent : Int
  /-- The neighbour below is only half as far away as the one above. -/
  narrowBelow : Bool
  deriving DecidableEq, Repr

/-- A decimal number `digits · 10 ^ exponent`. -/
structure Decimal where
  digits : Nat
  exponent : Int
  deriving DecidableEq, Repr

/-- The magnitude that the bits of a finite binary64 number stand for. -/
def Binary.ofBits (bits : UInt64) : Binary :=
  let fraction := bits.toNat % Nat.pow 2 52
  let power := bits.toNat / Nat.pow 2 52 % Nat.pow 2 11
  if power = 0 then ⟨fraction, -1074, false⟩
  else ⟨Nat.pow 2 52 + fraction, (power : Int) - 1075, fraction = 0 && 1 < power⟩

/-- The multiple of `10 ^ grid` that reads back as `b`, if there is one: the nearer of the two
around `b`, or the only one inside the interval. -/
def Binary.onGrid (b : Binary) (grid : Int) : Option Nat :=
  let power := b.exponent - 2
  let scale := Nat.pow 2 power.toNat * Nat.pow 10 (-grid).toNat
  let unit := Nat.pow 2 (-power).toNat * Nat.pow 10 grid.toNat
  let value := 4 * b.mantissa * scale
  let low := (4 * b.mantissa - if b.narrowBelow then 1 else 2) * scale
  let high := (4 * b.mantissa + 2) * scale
  let inside (n : Nat) : Bool :=
    if b.mantissa % 2 = 0 then low ≤ n * unit && n * unit ≤ high
    else low < n * unit && n * unit < high
  let below := value / unit
  let above := below + 1
  match inside below, inside above with
  | true, true =>
    if 2 * (value % unit) < unit then some below
    else if unit < 2 * (value % unit) then some above
    else if below % 2 = 0 then some below else some above
  | true, false => some below
  | false, true => some above
  | false, false => none

/-- The power of ten of the first digit of `b`. -/
def Binary.magnitude (b : Binary) : Int :=
  let whole := b.mantissa * Nat.pow 2 b.exponent.toNat / Nat.pow 2 (-b.exponent).toNat
  if 0 < whole then (Nat.toDigits 10 whole).length - 1
  else
    let below (n : Nat) : Bool := Nat.pow 2 (-b.exponent).toNat ≤ b.mantissa * Nat.pow 10 n
    Int.negOfNat (((List.range 400).find? below).getD 400)

/-- Leaves out the zeros at the end. -/
def Decimal.trim : Nat → Decimal → Decimal
  | 0, d => d
  | fuel + 1, d =>
    if d.digits % 10 = 0 then Decimal.trim fuel ⟨d.digits / 10, d.exponent + 1⟩ else d

/-- The shortest decimal that reads back as `b`; seventeen digits are always enough. -/
def Binary.shortest (b : Binary) : Decimal :=
  let magnitude := b.magnitude
  let candidate (n : Nat) : Option Decimal :=
    let grid := magnitude - n
    (b.onGrid grid).map fun digits => ⟨digits, grid⟩
  Decimal.trim 17 (((List.range 17).findSome? candidate).getD ⟨0, 0⟩)

/-- Which powers of ten of the first digit are written out by position. -/
structure Decimal.Layout where
  least : Int
  greatest : Int

/-- The text of a positive decimal.  By position it always has a point; otherwise the first digit
stands before the point and the power of ten follows with its sign. -/
def Decimal.text (layout : Decimal.Layout) (d : Decimal) : List Char :=
  let digits := Nat.toDigits 10 d.digits
  let magnitude := d.exponent + digits.length - 1
  if layout.least ≤ magnitude && magnitude ≤ layout.greatest then
    if magnitude < 0 then
      ['0', '.'] ++ List.replicate (-magnitude - 1).toNat '0' ++ digits
    else
      let places := magnitude.toNat + 1
      if digits.length ≤ places then
        digits ++ List.replicate (places - digits.length) '0' ++ ['.', '0']
      else digits.take places ++ '.' :: digits.drop places
  else
    let mantissa :=
      match digits with
      | first :: next :: rest => first :: '.' :: next :: rest
      | _ => digits
    mantissa ++ 'e' :: (if magnitude < 0 then '-' else '+') :: Nat.toDigits 10 magnitude.natAbs

/-- The text of a finite binary64 number. -/
def floatText (layout : Decimal.Layout) (x : Float) : List Char :=
  let bits := x.toBits
  let sign := if bits.toNat / Nat.pow 2 63 = 1 then ['-'] else []
  let magnitude := if bits.toNat % Nat.pow 2 63 = 0 then ['0', '.', '0']
    else (Binary.ofBits bits).shortest.text layout
  sign ++ magnitude

example : (Binary.ofBits 1).shortest = ⟨5, -324⟩ := by decide +kernel
example : (Binary.ofBits (0.1 : Float).toBits).shortest = ⟨1, -1⟩ := by decide +kernel

end CniPlugin
