import CniPlugin.Text.Unprintable
/-!
# Quoted text

Messages name a text that came from outside between double quotes, so that blanks and control
characters in it can be seen.  A list of texts stands between brackets.  Every escape starts with a
backslash and a backslash is itself escaped, so the text can be told from its quoted form.
-/

namespace CniPlugin.Text

namespace Quoted

/-- How one character stands between the quotes. -/
def encodeChar (c : Char) : List Char :=
  if c = '"' then ['\\', '"']
  else if c = '\\' then ['\\', '\\']
  else if c = '\n' then ['\\', 'n']
  else if c = '\r' then ['\\', 'r']
  else if c = '\t' then ['\\', 't']
  else if c = '\x00' then ['\\', '0']
  else if isUnprintable c then ['\\', 'u', '{'] ++ Nat.toDigits 16 c.toNat ++ ['}']
  else [c]

/-- The text between double quotes. -/
def encode (cs : List Char) : List Char := '"' :: (cs.flatMap encodeChar ++ ['"'])

/-- The texts of a list, a comma and a blank between neighbours. -/
def encodeItems : List (List Char) → List Char
  | [] => []
  | [item] => encode item
  | item :: items => encode item ++ [',', ' '] ++ encodeItems items

/-- The quoted texts of a list between brackets. -/
def encodeList (items : List (List Char)) : List Char := '[' :: (encodeItems items ++ [']'])

end Quoted

/-- The string between double quotes. -/
def quoted (s : String) : String := String.ofList (Quoted.encode s.toList)

/-- The quoted strings of a list between brackets. -/
def quotedList (items : List String) : String :=
  String.ofList (Quoted.encodeList (items.map String.toList))

example : (Quoted.encode "a\"\n\x1bé".toList) = "\"a\\\"\\n\\u\x7b1b\x7dé\"".toList := by
  decide +kernel
example : Quoted.encodeList [['a'], []] = "[\"a\", \"\"]".toList := by decide +kernel
example : Quoted.encodeList [] = "[]".toList := by decide +kernel

end CniPlugin.Text
