import CniPlugin.Json.Container
/-!
# Values passed over

A member that nobody asked for is passed over.  Its syntax is checked, but its numbers are not
converted, its strings need not be well formed, and it may be nested to any depth.

The bytes ahead bound both how deep a value is nested and how many items or members follow each
other, so the recursion is on them; if they are used up, then so is the input.
-/

namespace CniPlugin.Json

/-- A comma or the closing bracket after an item, true for the comma. -/
def passItemEnd : Reader Bool := fun s =>
  match skipBlanks s with
  | [] => .error (.placed .endOfList 0)
  | b :: r =>
    if b = 0x2C then .ok (true, r)
    else if b = 0x5D then .ok (false, r)
    else .error (.placed .expectedListEnd r.length)

/-- A comma or the closing brace after a member, true for the comma. -/
def passMemberEnd : Reader Bool := fun s =>
  match skipBlanks s with
  | [] => .error (.placed .endOfObject 0)
  | b :: r =>
    if b = 0x2C then .ok (true, r)
    else if b = 0x7D then .ok (false, r)
    else .error (.placed .expectedObjectEnd r.length)

/-- A key. -/
def passKey : Reader Unit := fun s =>
  match skipBlanks s with
  | [] => .error (.placed .endOfObject 0)
  | b :: r => if b = 0x22 then passText r else .error (.placed .expectedKey r.length)

/-- Items and what ends them, from the first item on. -/
def passItems (value : Reader Unit) : Bytes → Reader Unit
  | [] => failHere .endOfList
  | _ :: rounds => do
    value
    if ← passItemEnd then passItems value rounds else pure ()

/-- Members and what ends them, from the first key on. -/
def passMembers (value : Reader Unit) : Bytes → Reader Unit
  | [] => failHere .endOfObject
  | _ :: rounds => do
    passKey
    colon
    value
    if ← passMemberEnd then passMembers value rounds else pure ()

/-- A list after its opening bracket. -/
def passList (value : Reader Unit) (rounds : Bytes) : Reader Unit := fun s =>
  match skipBlanks s with
  | [] => .error (.placed .endOfList 0)
  | b :: r => if b = 0x5D then .ok ((), r) else passItems value rounds (b :: r)

/-- An object after its opening brace. -/
def passObject (value : Reader Unit) (rounds : Bytes) : Reader Unit := fun s =>
  match skipBlanks s with
  | [] => .error (.placed .endOfObject 0)
  | b :: r => if b = 0x7D then .ok ((), r) else passMembers value rounds (b :: r)

/-- A value in which nesting and repetition are bounded by the number of some bytes. -/
def passWithin : Bytes → Reader Unit
  | [] => failHere .endOfValue
  | _ :: deeper => fun s =>
    match skipBlanks s with
    | [] => .error (.placed .endOfValue 0)
    | b :: r =>
      match Start.of b with
      | .null => word restOfNull r
      | .true => word restOfTrue r
      | .false => word restOfFalse r
      | .minus => ((fun _ => ()) <$> numeral true .invalidNumber) r
      | .digit => ((fun _ => ()) <$> numeral false .invalidNumber) (b :: r)
      | .text => passText r
      | .list => passList (passWithin deeper) deeper r
      | .object => passObject (passWithin deeper) deeper r
      | .none => .error (.placed .expectedValue r.length)

/-- A value of any depth. -/
def pass : Reader Unit := fun s => passWithin s s

end CniPlugin.Json
