import CniPlugin.Json.Value
import CniPlugin.Json.Container
/-!
# Free values

A free value may be any JSON value and is kept as a whole: strings have to be well formed, numbers
have to be in range, and lists and objects may be nested 127 deep.
-/

namespace CniPlugin.Json

/-- How deep lists and objects may be nested. -/
def depthLimit : Nat := 127

/-- A value, with the readers for what follows an opening bracket and an opening brace. -/
def valueWith (list object : Reader Json) : Reader Json := fun s =>
  match skipBlanks s with
  | [] => .error (.placed .endOfValue 0)
  | b :: r =>
    match Start.of b with
    | .null => ((fun _ => .null) <$> word restOfNull) r
    | .true => ((fun _ => .bool true) <$> word restOfTrue) r
    | .false => ((fun _ => .bool false) <$> word restOfFalse) r
    | .minus => (.number <$> numberAfterSign true) r
    | .digit => (.number <$> numberAfterSign false) (b :: r)
    | .text => (.text <$> textBody) r
    | .list => list r
    | .object => object r
    | .none => .error (.placed .expectedValue r.length)

/-- The items of a list, the last one first. -/
def listOf (value : Reader Json) : Reader Json :=
  (fun acc => .list acc.reverse) <$> inList (items (fun acc => (· :: acc) <$> value) [])

/-- The members of an object; of members with the same key the last one stays. -/
def objectOf (value : Reader Json) : Reader Json :=
  .object <$> inObject (members (fun key acc => do
    colon
    let v ← value
    pure (insert key v acc)) [])

/-- A value in which lists and objects may be nested so deep. -/
def value : Nat → Reader Json
  | 0 => valueWith (failHere .tooDeep) (failHere .tooDeep)
  | depth + 1 => valueWith (listOf (value depth)) (objectOf (value depth))

/-- Reads an input that holds one value. -/
def parse (input : Bytes) : Except ReadError Json := readDocument (value depthLimit) input

end CniPlugin.Json
