import CniPlugin.Json.Number
/-!
# JSON values

An object is a list of members.  Objects that were read hold their members sorted by key, each key
once with its last value; objects that are only written keep the order in which they were built.

Results: `lookup_insert_self` and `lookup_insert_of_ne` (what an insertion does to every key).
-/

namespace CniPlugin

inductive Json where
  | null
  | bool (value : Bool)
  | number (value : Json.Number)
  | text (value : String)
  | list (items : List Json)
  | object (members : List (String × Json))

namespace Json

/-- Puts a member at its place among sorted members; a member with the same key is replaced. -/
def insert (key : String) (value : Json) : List (String × Json) → List (String × Json)
  | [] => [(key, value)]
  | (k, v) :: members =>
    if key = k then (key, value) :: members
    else if key < k then (key, value) :: (k, v) :: members
    else (k, v) :: insert key value members

/-- The value of the first member with the key. -/
def lookup (key : String) : List (String × Json) → Option Json
  | [] => none
  | (k, v) :: members => if key = k then some v else lookup key members

@[simp]
theorem lookup_insert_self (key : String) (value : Json) (members : List (String × Json)) :
    lookup key (insert key value members) = some value := by
  induction members with
  | nil => simp [insert, lookup]
  | cons m ms ih =>
    simp only [insert]
    split
    · simp [lookup]
    · split
      · simp [lookup]
      · next h _ => simp [lookup, h, ih]

theorem lookup_insert_of_ne {key other : String} (h : other ≠ key) (value : Json)
    (members : List (String × Json)) :
    lookup other (insert key value members) = lookup other members := by
  induction members with
  | nil => simp [insert, lookup, h]
  | cons m ms ih =>
    simp only [insert]
    split
    · next e => simp [lookup, h, ← e]
    · split
      · simp [lookup, h]
      · simp [lookup, ih]

/-- An integer that fits in 32 bits as a JSON value. -/
def ofWord (n : UInt32) : Json :=
  .number (.integer n.toNat (by have := n.toNat_lt; omega))

end Json
end CniPlugin
