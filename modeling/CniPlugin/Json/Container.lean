import CniPlugin.Json.Token
/-!
# Lists and objects

The punctuation of lists and objects, for every read that keeps what it finds.  The loops are
generic: what is done with an item or a member is given by the caller, who also says what is
accumulated.

A loop takes at most as many rounds as there are bytes ahead, since every round but the last takes
at least one byte.  So these bytes are what the loop recurses on; if they are used up, then so is
the input.
-/

namespace CniPlugin.Json

/-- Whether an item comes next.  Takes the comma in front of it; leaves the closing bracket. -/
def nextItem (first : Bool) : Reader Bool := fun s =>
  match skipBlanks s with
  | [] => .error (.placed .endOfList 0)
  | b :: r =>
    if b = 0x5D then .ok (false, b :: r)
    else if first then .ok (true, b :: r)
    else if b = 0x2C then
      match skipBlanks r with
      | [] => .error (.placed .endOfValue 0)
      | c :: t =>
        if c = 0x5D then .error (.placed .trailingComma t.length) else .ok (true, c :: t)
    else .error (.placed .expectedListEnd r.length)

/-- The key of the next member, if one comes next.  Takes the comma in front of it; leaves the
closing brace. -/
def nextKey (first : Bool) : Reader (Option String) := fun s =>
  match skipBlanks s with
  | [] => .error (.placed .endOfObject 0)
  | b :: r =>
    if b = 0x7D then .ok (none, b :: r)
    else if first then
      if b = 0x22 then (some <$> textBody) r else .error (.placed .expectedKey r.length)
    else if b = 0x2C then
      match skipBlanks r with
      | [] => .error (.placed .endOfValue 0)
      | c :: t =>
        if c = 0x22 then (some <$> textBody) t
        else if c = 0x7D then .error (.placed .trailingComma t.length)
        else .error (.placed .expectedKey t.length)
    else .error (.placed .expectedObjectEnd r.length)

/-- The colon between key and value. -/
def colon : Reader Unit := fun s =>
  match skipBlanks s with
  | [] => .error (.placed .endOfObject 0)
  | b :: r => if b = 0x3A then .ok ((), r) else .error (.placed .expectedColon r.length)

/-! ## Loops -/

/-- Reads items until the closing bracket comes next. -/
def itemsWithin {σ : Type} (item : σ → Reader σ) : Bytes → Bool → σ → Reader σ
  | [], _, _ => failHere .endOfList
  | _ :: rounds, first, acc => do
    if ← nextItem first then
      let acc ← item acc
      itemsWithin item rounds false acc
    else pure acc

/-- Reads members until the closing brace comes next. -/
def membersWithin {σ : Type} (member : String → σ → Reader σ) : Bytes → Bool → σ → Reader σ
  | [], _, _ => failHere .endOfObject
  | _ :: rounds, first, acc => do
    match ← nextKey first with
    | some key =>
      let acc ← member key acc
      membersWithin member rounds false acc
    | none => pure acc

/-- The items after an opening bracket. -/
def items {σ : Type} (item : σ → Reader σ) (acc : σ) : Reader σ :=
  fun s => itemsWithin item s true acc s

/-- The members after an opening brace. -/
def members {σ : Type} (member : String → σ → Reader σ) (acc : σ) : Reader σ :=
  fun s => membersWithin member s true acc s

/-! ## The closing bracket -/

/-- The end of a list. -/
def closeList : Reader Unit := fun s =>
  match skipBlanks s with
  | [] => .error (.placed .endOfList 0)
  | b :: r =>
    if b = 0x5D then .ok ((), r)
    else if b = 0x2C then
      match skipBlanks r with
      | [] => .error (.placed .trailingBytes 0)
      | c :: t => .error (.placed (if c = 0x5D then .trailingComma else .trailingBytes) t.length)
    else .error (.placed .trailingBytes r.length)

/-- The end of an object. -/
def closeObject : Reader Unit := fun s =>
  match skipBlanks s with
  | [] => .error (.placed .endOfObject 0)
  | b :: r =>
    if b = 0x7D then .ok ((), r)
    else .error (.placed (if b = 0x2C then .trailingComma else .trailingBytes) r.length)

/-- What is ahead once the end of a list has been looked for after a failure. -/
def afterList (s : Bytes) : Bytes :=
  match skipBlanks s with
  | [] => []
  | b :: r => if b = 0x5D then r else if b = 0x2C then skipBlanks r else b :: r

/-- What is ahead once the end of an object has been looked for after a failure. -/
def afterObject (s : Bytes) : Bytes :=
  match skipBlanks s with
  | [] => []
  | b :: r => if b = 0x7D then r else b :: r

/-- The content of a list and its closing bracket.  A floating failure is placed after the list. -/
def inList {σ : Type} (content : Reader σ) : Reader σ := fun s =>
  match content s with
  | .error f => .error (f.settle afterList)
  | .ok (acc, rest) => (fun p => (acc, p.2)) <$> closeList rest

/-- The content of an object and its closing brace.  A floating failure is placed after the
object. -/
def inObject {σ : Type} (content : Reader σ) : Reader σ := fun s =>
  match content s with
  | .error f => .error (f.settle afterObject)
  | .ok (acc, rest) => (fun p => (acc, p.2)) <$> closeObject rest

/-! ## Documents -/

/-- Nothing but blanks may follow a document. -/
def endOfDocument : Reader Unit := fun s =>
  match skipBlanks s with
  | [] => .ok ((), [])
  | _ :: r => .error (.placed .trailingBytes r.length)

/-- Reads a whole input. -/
def readDocument {α : Type} (reader : Reader α) (input : Bytes) : Except ReadError α :=
  match reader input with
  | .error f => .error (f.locate input)
  | .ok (value, rest) =>
    match endOfDocument rest with
    | .error f => .error (f.locate input)
    | .ok _ => .ok value

end CniPlugin.Json
