import CniPlugin.Text.Split
import CniPlugin.Text.Quoted
/-!
# Extra arguments

Extra arguments are pairs `key=value` with semicolons between them.  A key is not empty; a value may
be, and may hold further equality signs.  The empty text has no pairs.
-/

namespace CniPlugin.ExtraArgs

/-- An entry that is no pair. -/
structure InvalidPair where
  entry : String
  deriving DecidableEq, Repr

def InvalidPair.message (e : InvalidPair) : String := "ARGS: invalid pair " ++ Text.quoted e.entry

/-- The key and the value of an entry. -/
def pair? (entry : List Char) : Option (String × String) :=
  match Text.cut '=' entry with
  | some (key, value) =>
    if key = [] then none else some (String.ofList key, String.ofList value)
  | none => none

/-- The pairs of the entries, or the first entry that is none. -/
def pairs : List (List Char) → Except InvalidPair (List (String × String))
  | [] => .ok []
  | entry :: entries =>
    match pair? entry with
    | none => .error ⟨String.ofList entry⟩
    | some pair =>
      match pairs entries with
      | .error e => .error e
      | .ok rest => .ok (pair :: rest)

/-- Reads extra arguments. -/
def parse (raw : String) : Except InvalidPair (List (String × String)) :=
  if raw = "" then .ok [] else pairs (Text.split ';' raw.toList)

/-- Writes a pair. -/
def pairChars (pair : String × String) : List Char := pair.1.toList ++ '=' :: pair.2.toList

/-- Writes pairs. -/
def write (pairs : List (String × String)) : String :=
  String.ofList (Text.join ';' (pairs.map pairChars))

example : parse "A=1;B==" = .ok [("A", "1"), ("B", "=")] := by rfl
example : parse "A=1;" = .error ⟨""⟩ := by rfl

end CniPlugin.ExtraArgs
