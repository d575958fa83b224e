import CniPlugin.Json.Container
/-!
# Typed values

Readers for values of a known kind.  A value of another kind is first read as far as its first
token, so a fault in that token is reported before the wrong kind is; a list or an object is not
entered.
-/

namespace CniPlugin.Json

/-- Fails for a value of the wrong kind. -/
def wrongType {α : Type} (expected : Expected) : Reader α := fun s =>
  let refuse (found : Found) (rest : Bytes) : Except Failure (α × Bytes) :=
    .error (.placed (.wrongType found expected) rest.length)
  match s with
  | [] => .error (.placed .endOfValue 0)
  | b :: r =>
    match Start.of b with
    | .null => do let (_, rest) ← word restOfNull r; refuse .null rest
    | .true => do let (_, rest) ← word restOfTrue r; refuse (.bool true) rest
    | .false => do let (_, rest) ← word restOfFalse r; refuse (.bool false) rest
    | .minus => do let (n, rest) ← numberAfterSign true r; refuse (.number n) rest
    | .digit => do let (n, rest) ← numberAfterSign false (b :: r); refuse (.number n) rest
    | .text => do let (text, rest) ← textBody r; refuse (.text text) rest
    | .list => refuse .list (b :: r)
    | .object => refuse .object (b :: r)
    | .none => .error (.placed .expectedValue r.length)

/-- A string. -/
def typedText (expected : Expected) : Reader String := fun s =>
  match skipBlanks s with
  | [] => .error (.placed .endOfValue 0)
  | b :: r => if b = 0x22 then textBody r else wrongType expected (b :: r)

/-- A number that was read where an unsigned 32-bit integer is expected. -/
def wordOfNumber (n : Number) : Reader UInt32 := fun rest =>
  match n with
  | .integer value _ =>
    if 0 ≤ value ∧ value < UInt32.size then .ok (UInt32.ofNat value.toNat, rest)
    else .error (.placed (.wrongValue value .word) rest.length)
  | .float value => .error (.placed (.wrongType (.number (.float value)) .word) rest.length)

/-- An unsigned 32-bit integer. -/
def typedWord : Reader UInt32 := fun s =>
  match skipBlanks s with
  | [] => .error (.placed .endOfValue 0)
  | b :: r =>
    match Start.of b with
    | .minus => (numberAfterSign true >>= wordOfNumber) r
    | .digit => (numberAfterSign false >>= wordOfNumber) (b :: r)
    | _ => wrongType .word (b :: r)

/-- Null, or a value. -/
def orNull {α : Type} (value : Reader α) : Reader (Option α) := fun s =>
  match skipBlanks s with
  | [] => (some <$> value) []
  | b :: r =>
    if b = 0x6E then ((fun _ => none) <$> word restOfNull) r else (some <$> value) (b :: r)

/-- A list of strings. -/
def typedTexts : Reader (List String) := fun s =>
  match skipBlanks s with
  | [] => .error (.placed .endOfValue 0)
  | b :: r =>
    if b = 0x5B then
      (List.reverse <$> inList (items (fun acc => (· :: acc) <$> typedText .text) [])) r
    else wrongType .list (b :: r)

end CniPlugin.Json
