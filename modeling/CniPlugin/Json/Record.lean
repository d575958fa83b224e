import CniPlugin.Json.Typed
import CniPlugin.Json.Passed
/-!
# Records

A record is a value with known fields.  It is written as an object, or as a list of its fields in
the order of their declaration.  A draft holds what has been read of it so far.

In an object a known key may occur once, an unknown one is passed over, and a required field that is
missing is reported when the closing brace is reached.  In a list the first required field that is
missing is reported.
-/

namespace CniPlugin.Json

/-- A field of a record whose drafts are of type `σ`. -/
structure Field (σ : Type) where
  key : String
  required : Bool
  /-- Whether the draft has the field already. -/
  filled : σ → Bool
  /-- Reads the value of the field into the draft. -/
  read : σ → Reader σ

/-- The field that is kept in one place of the draft. -/
def Field.of {σ α : Type} (key : String) (required : Bool) (get : σ → Option α)
    (set : α → σ → σ) (reader : Reader α) : Field σ where
  key := key
  required := required
  filled draft := (get draft).isSome
  read draft := do
    let value ← reader
    pure (set value draft)

/-- What a record consists of. -/
structure Shape (σ : Type) where
  title : String
  fields : List (Field σ)

variable {σ : Type}

/-- What to do with a member of an unknown key. -/
abbrev Stray (σ : Type) := String → σ → Reader σ

/-- Passes over a member. -/
def Stray.pass : Stray σ := fun _ draft => do
  colon
  Json.pass
  pure draft

/-- Reads the member of a key that has been read. -/
def readMember (fields : List (Field σ)) (stray : Stray σ) (key : String) (draft : σ) :
    Reader σ :=
  match fields.find? (·.key = key) with
  | some field =>
    if field.filled draft then failFloating (.duplicateField key)
    else do
      colon
      field.read draft
  | none => stray key draft

/-- The first required field that the draft lacks. -/
def firstMissing (fields : List (Field σ)) (draft : σ) : Option String :=
  (fields.find? fun field => field.required && !field.filled draft).map (·.key)

/-- The members of a record after the opening brace. -/
def recordMembers (fields : List (Field σ)) (stray : Stray σ) (draft : σ) : Reader σ := do
  let draft ← members (readMember fields stray) draft
  match firstMissing fields draft with
  | some key => failFloating (.missingField key)
  | none => pure draft

/-- The fields of a record as the items of a list.  `index` counts the fields before. -/
def recordItems (shape : Shape σ) : List (Field σ) → Nat → Bool → σ → Reader σ
  | [], _, _, draft => pure draft
  | field :: fields, index, first, draft => do
    if ← nextItem first then
      let draft ← field.read draft
      recordItems shape fields (index + 1) false draft
    else if field.required then
      failFloating (.wrongLength index shape.title shape.fields.length)
    else recordItems shape fields (index + 1) first draft

/-- A record, starting from an empty draft. -/
def Shape.read (shape : Shape σ) (empty : σ) : Reader σ := fun s =>
  match skipBlanks s with
  | [] => .error (.placed .endOfValue 0)
  | b :: r =>
    if b = 0x5B then inList (recordItems shape shape.fields 0 true empty) r
    else if b = 0x7B then inObject (recordMembers shape.fields Stray.pass empty) r
    else wrongType (.record shape.title) (b :: r)

/-- A record that is always an object and keeps the members of unknown keys. -/
def Shape.readObject (shape : Shape σ) (stray : Stray σ) (empty : σ) : Reader σ := fun s =>
  match skipBlanks s with
  | [] => .error (.placed .endOfValue 0)
  | b :: r =>
    if b = 0x7B then inObject (recordMembers shape.fields stray empty) r
    else wrongType (.record shape.title) (b :: r)

end CniPlugin.Json
