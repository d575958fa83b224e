import CniPlugin.Json.ReadError
/-!
# Tokens

Readers for what a value is made of: blanks, words, numerals and strings.  Every reader takes the
bytes ahead and returns what it read and the bytes after it.

The same readers serve values that are kept and values that are only passed over; those differ in
what they ask of a string and in the cause that they give when a numeral is cut off.
-/

namespace CniPlugin.Json

/-- Takes a value off the bytes ahead, or fails. -/
abbrev Reader (α : Type) := StateT Bytes (Except Failure) α

/-- Fails before the next byte. -/
def failHere {α : Type} (cause : Cause) : Reader α := fun s => .error (.placed cause s.length)

/-- Fails without a place; the enclosing value will give one. -/
def failFloating {α : Type} (cause : Cause) : Reader α := fun s => .error (.floating cause s)

/-! ## Blanks and words -/

/-- Space, line feed, tab and carriage return. -/
def isBlank (b : UInt8) : Bool := b = 0x20 || b = 0x0A || b = 0x09 || b = 0x0D

def skipBlanks (s : Bytes) : Bytes := s.dropWhile isBlank

/-- What a value that begins with a byte can be. -/
inductive Start where
  | null
  | true
  | false
  | minus
  | digit
  | text
  | list
  | object
  | none
  deriving DecidableEq, Repr

def isDigit (b : UInt8) : Bool := 0x30 ≤ b && b ≤ 0x39

def Start.of (b : UInt8) : Start :=
  if b = 0x6E then .null
  else if b = 0x74 then .true
  else if b = 0x66 then .false
  else if b = 0x2D then .minus
  else if isDigit b then .digit
  else if b = 0x22 then .text
  else if b = 0x5B then .list
  else if b = 0x7B then .object
  else .none

/-- Reads the given bytes. -/
def word : Bytes → Reader Unit
  | [] => fun s => .ok ((), s)
  | e :: es => fun s =>
    match s with
    | [] => .error (.placed .endOfValue 0)
    | b :: r => if b = e then word es r else .error (.placed .expectedWord r.length)

/-- What follows the first byte of `null`. -/
def restOfNull : Bytes := [0x75, 0x6C, 0x6C]

/-- What follows the first byte of `true`. -/
def restOfTrue : Bytes := [0x72, 0x75, 0x65]

/-- What follows the first byte of `false`. -/
def restOfFalse : Bytes := [0x61, 0x6C, 0x73, 0x65]

/-! ## Numerals -/

/-- The digits before the point: a zero alone, or digits that do not start with zero. -/
def wholeDigits (atEnd : Cause) : Reader Bytes := fun s =>
  match s with
  | [] => .error (.placed atEnd 0)
  | b :: r =>
    if b = 0x30 then
      match r with
      | [] => .ok ([b], [])
      | d :: r' =>
        if isDigit d then .error (.placed .invalidNumber r'.length) else .ok ([b], d :: r')
    else if isDigit b then .ok (b :: r.takeWhile isDigit, r.dropWhile isDigit)
    else .error (.placed .invalidNumber r.length)

/-- The digits after the point, none if there is no point. -/
def fractionDigits (atEnd : Cause) : Reader Bytes := fun s =>
  match s with
  | [] => .ok ([], [])
  | b :: r =>
    if b = 0x2E then
      match r with
      | [] => .error (.placed atEnd 0)
      | d :: r' =>
        if isDigit d then .ok (d :: r'.takeWhile isDigit, r'.dropWhile isDigit)
        else .error (.placed .invalidNumber r'.length)
    else .ok ([], b :: r)

/-- The sign of an exponent, true for minus, and the bytes after it. -/
def exponentSign : Bytes → Bool × Bytes
  | [] => (false, [])
  | b :: r => if b = 0x2B then (false, r) else if b = 0x2D then (true, r) else (false, b :: r)

/-- The sign and the digits of the exponent, if there is one. -/
def exponentDigits (atEnd : Cause) : Reader (Option (Bool × Bytes)) := fun s =>
  match s with
  | [] => .ok (none, [])
  | b :: r =>
    if b = 0x65 || b = 0x45 then
      match exponentSign r with
      | (_, []) => .error (.placed atEnd 0)
      | (negative, d :: r') =>
        if isDigit d then
          .ok (some (negative, d :: r'.takeWhile isDigit), r'.dropWhile isDigit)
        else .error (.placed .invalidNumber r'.length)
    else .ok (none, b :: r)

/-- A numeral after its sign.  `atEnd` is the cause if the input ends inside it. -/
def numeral (negative : Bool) (atEnd : Cause) : Reader Numeral := do
  let whole ← wholeDigits atEnd
  let fraction ← fractionDigits atEnd
  let exponent ← exponentDigits atEnd
  pure ⟨negative, whole, fraction, exponent⟩

/-- A number after its sign. -/
def numberAfterSign (negative : Bool) : Reader Number := fun s =>
  match numeral negative .endOfValue s with
  | .error f => .error f
  | .ok (n, rest) =>
    match n.value with
    | .ok value => .ok (value, rest)
    | .error unread => .error (.placed .numberOutOfRange (rest.length + unread))

/-! ## Strings -/

/-- The value of a hexadecimal digit. -/
def hexValue? (b : UInt8) : Option Nat :=
  if isDigit b then some (b.toNat - 0x30)
  else if 0x61 ≤ b && b ≤ 0x66 then some (b.toNat - 0x57)
  else if 0x41 ≤ b && b ≤ 0x46 then some (b.toNat - 0x37)
  else none

/-- The value of four hexadecimal digits. -/
def hexFour? (a b c d : UInt8) : Option Nat := do
  let a ← hexValue? a
  let b ← hexValue? b
  let c ← hexValue? c
  let d ← hexValue? d
  pure (((a * 16 + b) * 16 + c) * 16 + d)

/-- The byte that a one-letter escape stands for. -/
def unescape? (b : UInt8) : Option UInt8 :=
  if b = 0x22 || b = 0x5C || b = 0x2F then some b
  else if b = 0x62 then some 0x08
  else if b = 0x66 then some 0x0C
  else if b = 0x6E then some 0x0A
  else if b = 0x72 then some 0x0D
  else if b = 0x74 then some 0x09
  else none

def isHighSurrogate (n : Nat) : Bool := 0xD800 ≤ n && n < 0xDC00

def isLowSurrogate (n : Nat) : Bool := 0xDC00 ≤ n && n < 0xE000

/-- The character that a pair of surrogates stands for. -/
def joinSurrogates (high low : Nat) : Char :=
  Char.ofNat (0x10000 + (high - 0xD800) * 0x400 + (low - 0xDC00))

/-- Puts bytes in front of those that a reader of a string returns. -/
def prepend (bytes : Bytes) : Except Failure (Bytes × Bytes) → Except Failure (Bytes × Bytes)
  | .ok (content, rest) => .ok (bytes ++ content, rest)
  | .error f => .error f

/-- The bytes that a string holds once its escapes are resolved, after the opening quote and up to
the closing one. -/
def textBytes : Bytes → Except Failure (Bytes × Bytes)
  | [] => .error (.placed .endOfText 0)
  | b :: r =>
    if b = 0x22 then .ok ([], r)
    else if b = 0x5C then
      match r with
      | [] => .error (.placed .endOfText 0)
      | e :: r₁ =>
        if e = 0x75 then
          match r₁ with
          | h₁ :: h₂ :: h₃ :: h₄ :: r₂ =>
            match hexFour? h₁ h₂ h₃ h₄ with
            | none => .error (.placed .invalidEscape r₂.length)
            | some high =>
              if isLowSurrogate high then .error (.placed .loneSurrogate r₂.length)
              else if isHighSurrogate high then
                match r₂ with
                | [] => .error (.placed .endOfText 0)
                | x :: r₃ =>
                  if x = 0x5C then
                    match r₃ with
                    | [] => .error (.placed .endOfText 0)
                    | y :: r₄ =>
                      if y = 0x75 then
                        match r₄ with
                        | l₁ :: l₂ :: l₃ :: l₄ :: r₅ =>
                          match hexFour? l₁ l₂ l₃ l₄ with
                          | none => .error (.placed .invalidEscape r₅.length)
                          | some low =>
                            if isLowSurrogate low then
                              prepend (String.utf8EncodeChar (joinSurrogates high low))
                                (textBytes r₅)
                            else .error (.placed .loneSurrogate r₅.length)
                        | _ => .error (.placed .endOfText 0)
                      else .error (.placed .unpairedSurrogate r₄.length)
                  else .error (.placed .unpairedSurrogate r₃.length)
              else prepend (String.utf8EncodeChar (Char.ofNat high)) (textBytes r₂)
          | _ => .error (.placed .endOfText 0)
        else
          match unescape? e with
          | none => .error (.placed .invalidEscape r₁.length)
          | some c => prepend [c] (textBytes r₁)
    else if b < 0x20 then .error (.placed .controlCharacter r.length)
    else prepend [b] (textBytes r)
termination_by structural s => s

/-- A string after its opening quote.  Malformed bytes are noticed at its closing quote; the place
lies as many bytes before as are not well formed. -/
def textBody : Reader String := fun s =>
  match textBytes s with
  | .error f => .error f
  | .ok (content, rest) =>
    match Text.Utf8.decode content with
    | some cs => .ok (String.ofList cs, rest)
    | none =>
      let malformed := content.length - Text.Utf8.validLength content
      .error (.placed .malformedText (rest.length + malformed))

/-- Passes over a string after its opening quote.  Surrogates need not pair and the bytes need not
be well formed. -/
def passText : Bytes → Except Failure (Unit × Bytes)
  | [] => .error (.placed .endOfText 0)
  | b :: r =>
    if b = 0x22 then .ok ((), r)
    else if b = 0x5C then
      match r with
      | [] => .error (.placed .endOfText 0)
      | e :: r₁ =>
        if e = 0x75 then
          match r₁ with
          | h₁ :: h₂ :: h₃ :: h₄ :: r₂ =>
            match hexFour? h₁ h₂ h₃ h₄ with
            | none => .error (.placed .invalidEscape r₂.length)
            | some _ => passText r₂
          | _ => .error (.placed .endOfText 0)
        else
          match unescape? e with
          | none => .error (.placed .invalidEscape r₁.length)
          | some _ => passText r₁
    else if b < 0x20 then .error (.placed .controlCharacter (b :: r).length)
    else passText r
termination_by structural s => s

end CniPlugin.Json
