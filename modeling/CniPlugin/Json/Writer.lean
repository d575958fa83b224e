import CniPlugin.Json.Value
/-!
# Writing JSON

Two layouts: compact, without any blank, and indented, with two spaces per level and one member or
item per line.  In strings only the quote, the backslash and the bytes below 0x20 are escaped, so a
written value holds a line feed only where the indented layout puts one.
-/

namespace CniPlugin.Json

/-- A hexadecimal digit in lower case. -/
def hexDigit (n : Nat) : UInt8 := UInt8.ofNat (if n < 10 then 0x30 + n else 0x57 + n)

/-- How a character stands in a string. -/
def escapeChar (c : Char) : Bytes :=
  if c = '"' then [0x5C, 0x22]
  else if c = '\\' then [0x5C, 0x5C]
  else if c = '\x08' then [0x5C, 0x62]
  else if c = '\x0C' then [0x5C, 0x66]
  else if c = '\n' then [0x5C, 0x6E]
  else if c = '\r' then [0x5C, 0x72]
  else if c = '\t' then [0x5C, 0x74]
  else if c.toNat < 0x20 then
    [0x5C, 0x75, 0x30, 0x30, hexDigit (c.toNat / 16), hexDigit (c.toNat % 16)]
  else String.utf8EncodeChar c

/-- A string between quotes. -/
def quote (s : String) : Bytes := 0x22 :: (s.toList.flatMap escapeChar ++ [0x22])

/-- The text of a value that is neither list nor object. -/
def scalarText : Json → Bytes
  | .bool true => Text.Utf8.ofString "true"
  | .bool false => Text.Utf8.ofString "false"
  | .number n => Text.Utf8.encode n.text
  | .text s => quote s
  | _ => Text.Utf8.ofString "null"

/-! ## Compact -/

mutual

/-- A value without blanks. -/
def compact : Json → Bytes
  | .list items => 0x5B :: (compactItems items ++ [0x5D])
  | .object members => 0x7B :: (compactMembers members ++ [0x7D])
  | value => scalarText value

/-- The items with a comma between neighbours. -/
def compactItems : List Json → Bytes
  | [] => []
  | [item] => compact item
  | item :: next :: items => compact item ++ 0x2C :: compactItems (next :: items)

/-- The members with a comma between neighbours. -/
def compactMembers : List (String × Json) → Bytes
  | [] => []
  | [(key, value)] => quote key ++ 0x3A :: compact value
  | (key, value) :: next :: members =>
    quote key ++ 0x3A :: (compact value ++ 0x2C :: compactMembers (next :: members))

end

/-! ## Indented -/

/-- A line feed and the blanks of a level. -/
def newLine (level : Nat) : Bytes := 0x0A :: List.replicate (2 * level) 0x20

mutual

/-- A value that starts at the given level. -/
def indentedAt (level : Nat) : Json → Bytes
  | .list [] => [0x5B, 0x5D]
  | .list (item :: items) =>
    0x5B :: (indentedItems (level + 1) (item :: items) ++ newLine level ++ [0x5D])
  | .object [] => [0x7B, 0x7D]
  | .object (member :: members) =>
    0x7B :: (indentedMembers (level + 1) (member :: members) ++ newLine level ++ [0x7D])
  | value => scalarText value

/-- The items, each on a line of its own. -/
def indentedItems (level : Nat) : List Json → Bytes
  | [] => []
  | [item] => newLine level ++ indentedAt level item
  | item :: next :: items =>
    newLine level ++ indentedAt level item ++ 0x2C :: indentedItems level (next :: items)

/-- The members, each on a line of its own. -/
def indentedMembers (level : Nat) : List (String × Json) → Bytes
  | [] => []
  | [(key, value)] => newLine level ++ quote key ++ [0x3A, 0x20] ++ indentedAt level value
  | (key, value) :: next :: members =>
    newLine level ++ quote key ++ [0x3A, 0x20] ++ indentedAt level value ++
      0x2C :: indentedMembers level (next :: members)

end

/-- A value with one member or item per line. -/
def indented (value : Json) : Bytes := indentedAt 0 value

example : compact (.list [.null, .object [("a\n", .bool true)], .list []]) =
    Text.Utf8.ofString "[null,\x7b\"a\\n\":true\x7d,[]]" := by decide +kernel

end CniPlugin.Json
