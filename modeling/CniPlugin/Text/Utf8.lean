/-!
# UTF-8

Everything that arrives from outside is bytes: variable values, standard input, files.  Bytes are
read as a row of pieces, each a well-formed character or the longest start of one that breaks off.
Decoding, the length of the well-formed start and the lossy reading are three views of that row.

Results: `pieces_encode_append` (what is written is read back piece by piece), `decode_encode`,
and `lossy_of_decode` (a lossy reading of well-formed bytes loses nothing).
-/

namespace CniPlugin

/-- Bytes in the order they are read or written. -/
abbrev Bytes := List UInt8

namespace Text.Utf8

/-- The bytes of a text. -/
def encode (cs : List Char) : Bytes := cs.flatMap String.utf8EncodeChar

/-- The bytes of a string. -/
def ofString (s : String) : Bytes := encode s.toList

/-- One step of reading: a character, or so many bytes that start one and are not continued. -/
inductive Piece where
  | char (c : Char)
  | malformed (length : Nat)
  deriving DecidableEq, Repr

/-- Whether the byte can continue a character. -/
def isTail (b : UInt8) : Bool := 0x80 ≤ b && b < 0xC0

/-- Whether `b` can follow the lead byte of a three-byte character: no overlong forms, no
surrogates. -/
def isSecondOfThree (lead b : UInt8) : Bool :=
  if lead = 0xE0 then 0xA0 ≤ b && b < 0xC0
  else if lead = 0xED then 0x80 ≤ b && b < 0xA0
  else isTail b

/-- Whether `b` can follow the lead byte of a four-byte character: no overlong forms, nothing
above U+10FFFF. -/
def isSecondOfFour (lead b : UInt8) : Bool :=
  if lead = 0xF0 then 0x90 ≤ b && b < 0xC0
  else if lead = 0xF4 then 0x80 ≤ b && b < 0x90
  else isTail b

/-- The character written with one lead byte and one tail byte. -/
def two (a b : UInt8) : Char :=
  Char.ofNat ((a.toNat - 0xC0) * 64 + (b.toNat - 0x80))

/-- The character written with one lead byte and two tail bytes. -/
def three (a b c : UInt8) : Char :=
  Char.ofNat ((a.toNat - 0xE0) * 4096 + (b.toNat - 0x80) * 64 + (c.toNat - 0x80))

/-- The character written with one lead byte and three tail bytes. -/
def four (a b c d : UInt8) : Char :=
  Char.ofNat ((a.toNat - 0xF0) * 262144 + (b.toNat - 0x80) * 4096 + (c.toNat - 0x80) * 64 +
    (d.toNat - 0x80))

/-- The bytes as characters and broken-off starts of characters. -/
def pieces : Bytes → List Piece
  | [] => []
  | a :: r =>
    if a < 0x80 then .char (Char.ofNat a.toNat) :: pieces r
    else if a < 0xC2 then .malformed 1 :: pieces r
    else if a < 0xE0 then
      match r with
      | [] => [.malformed 1]
      | b :: r₁ =>
        if isTail b then .char (two a b) :: pieces r₁ else .malformed 1 :: pieces (b :: r₁)
    else if a < 0xF0 then
      match r with
      | [] => [.malformed 1]
      | b :: r₁ =>
        if isSecondOfThree a b then
          match r₁ with
          | [] => [.malformed 2]
          | c :: r₂ =>
            if isTail c then .char (three a b c) :: pieces r₂
            else .malformed 2 :: pieces (c :: r₂)
        else .malformed 1 :: pieces (b :: r₁)
    else if a < 0xF5 then
      match r with
      | [] => [.malformed 1]
      | b :: r₁ =>
        if isSecondOfFour a b then
          match r₁ with
          | [] => [.malformed 2]
          | c :: r₂ =>
            if isTail c then
              match r₂ with
              | [] => [.malformed 3]
              | d :: r₃ =>
                if isTail d then .char (four a b c d) :: pieces r₃
                else .malformed 3 :: pieces (d :: r₃)
            else .malformed 2 :: pieces (c :: r₂)
        else .malformed 1 :: pieces (b :: r₁)
    else .malformed 1 :: pieces r
termination_by structural bs => bs

/-- The characters, if every piece is one. -/
def Piece.chars? : List Piece → Option (List Char)
  | [] => some []
  | .char c :: ps => (chars? ps).map (c :: ·)
  | .malformed _ :: _ => none

/-- How many bytes the characters before the first malformed piece take. -/
def Piece.validLength : List Piece → Nat
  | .char c :: ps => c.utf8Size + validLength ps
  | _ => 0

/-- The characters, U+FFFD for each malformed piece. -/
def Piece.lossy : Piece → Char
  | .char c => c
  | .malformed _ => '\uFFFD'

/-- The text of well-formed bytes. -/
def decode (bs : Bytes) : Option (List Char) := Piece.chars? (pieces bs)

/-- The string of well-formed bytes. -/
def toString? (bs : Bytes) : Option String := (decode bs).map String.ofList

/-- The length of the longest well-formed start. -/
def validLength (bs : Bytes) : Nat := Piece.validLength (pieces bs)

/-- The text with U+FFFD in place of every malformed piece. -/
def lossy (bs : Bytes) : List Char := (pieces bs).map Piece.lossy

/-- The string with U+FFFD in place of every malformed piece. -/
def lossyString (bs : Bytes) : String := String.ofList (lossy bs)

/-! ## Reading what was written -/

theorem pieces_encodeChar_append (c : Char) (rest : Bytes) :
    pieces (String.utf8EncodeChar c ++ rest) = .char c :: pieces rest := by
  have hv : c.toNat < 0xD800 ∨ (0xDFFF < c.toNat ∧ c.toNat < 0x110000) := by
    have := c.valid
    simp only [UInt32.isValidChar, Nat.isValidChar] at this
    simp only [Char.toNat]
    omega
  have hc : Char.ofNat c.toNat = c := Char.ofNat_toNat c
  unfold String.utf8EncodeChar
  dsimp only
  simp only [Char.toNat] at hv hc
  generalize c.val.toNat = v at hv hc
  split
  · next h =>
    have h1 : UInt8.ofNat v < 0x80 := by
      simp [UInt8.lt_iff_toNat_lt]; omega
    have e : (UInt8.ofNat v).toNat = v := by simp; omega
    simp only [List.cons_append, List.nil_append]
    rw [pieces.eq_def (_ :: _)]
    simp [h1, e, hc]
  split
  · next h0 h =>
    have e1 : (UInt8.ofNat (v / 64 % 32 + 192)).toNat = v / 64 + 192 := by simp; omega
    have e2 : (UInt8.ofNat (v % 64 + 128)).toNat = v % 64 + 128 := by simp; omega
    generalize UInt8.ofNat (v / 64 % 32 + 192) = a at e1
    generalize UInt8.ofNat (v % 64 + 128) = b at e2
    have h1 : ¬ a < 0x80 := by simp [UInt8.lt_iff_toNat_lt]; omega
    have h2 : ¬ a < 0xC2 := by simp [UInt8.lt_iff_toNat_lt]; omega
    have h3 : a < 0xE0 := by simp [UInt8.lt_iff_toNat_lt]; omega
    have h4 : isTail b := by simp [isTail, UInt8.lt_iff_toNat_lt, UInt8.le_iff_toNat_le]; omega
    have h5 : two a b = c := by
      rw [← hc, two, e1, e2]
      exact congrArg Char.ofNat (by omega)
    simp only [List.cons_append, List.nil_append]
    rw [pieces.eq_def (_ :: _)]
    simp [h1, h2, h3, h4, h5]
  split
  · next h0 h1 h =>
    have e1 : (UInt8.ofNat (v / 4096 % 16 + 224)).toNat = v / 4096 + 224 := by simp; omega
    have e2 : (UInt8.ofNat (v / 64 % 64 + 128)).toNat = v / 64 % 64 + 128 := by simp; omega
    have e3 : (UInt8.ofNat (v % 64 + 128)).toNat = v % 64 + 128 := by simp; omega
    generalize UInt8.ofNat (v / 4096 % 16 + 224) = a at e1
    generalize UInt8.ofNat (v / 64 % 64 + 128) = b at e2
    generalize UInt8.ofNat (v % 64 + 128) = d at e3
    have h1 : ¬ a < 0x80 := by simp [UInt8.lt_iff_toNat_lt]; omega
    have h2 : ¬ a < 0xC2 := by simp [UInt8.lt_iff_toNat_lt]; omega
    have h3 : ¬ a < 0xE0 := by simp [UInt8.lt_iff_toNat_lt]; omega
    have h4 : a < 0xF0 := by simp [UInt8.lt_iff_toNat_lt]; omega
    have h5 : isSecondOfThree a b := by
      unfold isSecondOfThree isTail
      split
      · next ha =>
        subst ha
        simp [UInt8.lt_iff_toNat_lt, UInt8.le_iff_toNat_le] at e1 ⊢; omega
      · split
        · next ha =>
          subst ha
          simp [UInt8.lt_iff_toNat_lt, UInt8.le_iff_toNat_le] at e1 ⊢; omega
        · simp [UInt8.lt_iff_toNat_lt, UInt8.le_iff_toNat_le]; omega
    have h6 : isTail d := by simp [isTail, UInt8.lt_iff_toNat_lt, UInt8.le_iff_toNat_le]; omega
    have h7 : three a b d = c := by
      rw [← hc, three, e1, e2, e3]
      exact congrArg Char.ofNat (by omega)
    simp only [List.cons_append, List.nil_append]
    rw [pieces.eq_def (_ :: _)]
    simp [h1, h2, h3, h4, h5, h6, h7]
  · next h0 h1 h =>
    have e1 : (UInt8.ofNat (v / 262144 % 8 + 240)).toNat = v / 262144 + 240 := by simp; omega
    have e2 : (UInt8.ofNat (v / 4096 % 64 + 128)).toNat = v / 4096 % 64 + 128 := by simp; omega
    have e3 : (UInt8.ofNat (v / 64 % 64 + 128)).toNat = v / 64 % 64 + 128 := by simp; omega
    have e4 : (UInt8.ofNat (v % 64 + 128)).toNat = v % 64 + 128 := by simp; omega
    generalize UInt8.ofNat (v / 262144 % 8 + 240) = a at e1
    generalize UInt8.ofNat (v / 4096 % 64 + 128) = b at e2
    generalize UInt8.ofNat (v / 64 % 64 + 128) = d at e3
    generalize UInt8.ofNat (v % 64 + 128) = e at e4
    have h1 : ¬ a < 0x80 := by simp [UInt8.lt_iff_toNat_lt]; omega
    have h2 : ¬ a < 0xC2 := by simp [UInt8.lt_iff_toNat_lt]; omega
    have h3 : ¬ a < 0xE0 := by simp [UInt8.lt_iff_toNat_lt]; omega
    have h4 : ¬ a < 0xF0 := by simp [UInt8.lt_iff_toNat_lt]; omega
    have h5 : a < 0xF5 := by simp [UInt8.lt_iff_toNat_lt]; omega
    have h6 : isSecondOfFour a b := by
      unfold isSecondOfFour isTail
      split
      · next ha =>
        subst ha
        simp [UInt8.lt_iff_toNat_lt, UInt8.le_iff_toNat_le] at e1 ⊢; omega
      · split
        · next ha =>
          subst ha
          simp [UInt8.lt_iff_toNat_lt, UInt8.le_iff_toNat_le] at e1 ⊢; omega
        · simp [UInt8.lt_iff_toNat_lt, UInt8.le_iff_toNat_le]; omega
    have h7 : isTail d := by simp [isTail, UInt8.lt_iff_toNat_lt, UInt8.le_iff_toNat_le]; omega
    have h8 : isTail e := by simp [isTail, UInt8.lt_iff_toNat_lt, UInt8.le_iff_toNat_le]; omega
    have h9 : four a b d e = c := by
      rw [← hc, four, e1, e2, e3, e4]
      exact congrArg Char.ofNat (by omega)
    simp only [List.cons_append, List.nil_append]
    rw [pieces.eq_def (_ :: _)]
    simp [h1, h2, h3, h4, h5, h6, h7, h8, h9]

/-- What is written is read back piece by piece, whatever follows. -/
theorem pieces_encode_append (cs : List Char) (rest : Bytes) :
    pieces (encode cs ++ rest) = cs.map .char ++ pieces rest := by
  induction cs with
  | nil => rfl
  | cons c cs ih =>
    rw [encode, List.flatMap_cons, List.append_assoc, pieces_encodeChar_append]
    simp only [encode] at ih
    simp [ih]

theorem Piece.chars?_map_char (cs : List Char) : Piece.chars? (cs.map .char) = some cs := by
  induction cs with
  | nil => rfl
  | cons c cs ih => simp [Piece.chars?, ih]

/-- Decoding undoes encoding. -/
theorem decode_encode (cs : List Char) : decode (encode cs) = some cs := by
  have h := pieces_encode_append cs []
  rw [List.append_nil] at h
  rw [decode, h, pieces, List.append_nil, Piece.chars?_map_char]

theorem toString?_ofString (s : String) : toString? (ofString s) = some s := by
  simp [toString?, ofString, decode_encode]

theorem Piece.map_lossy_of_chars? {ps : List Piece} {cs : List Char} (h : chars? ps = some cs) :
    ps.map Piece.lossy = cs := by
  induction ps generalizing cs with
  | nil => simpa [chars?] using h
  | cons p ps ih =>
    cases p with
    | malformed => simp [chars?] at h
    | char c =>
      obtain ⟨ds, hd, rfl⟩ := Option.map_eq_some_iff.mp h
      simp [ih hd, Piece.lossy]

/-- A lossy reading of well-formed bytes loses nothing. -/
theorem lossy_of_decode {bs : Bytes} {cs : List Char} (h : decode bs = some cs) :
    lossy bs = cs :=
  Piece.map_lossy_of_chars? h

example : decode [0x61, 0xC3, 0xA9, 0xE6, 0x97, 0xA5, 0xF0, 0x9F, 0x98, 0x80] =
    some ['a', 'é', '日', '😀'] := by decide
example : pieces [0xE2, 0x82, 0x41, 0xED, 0xA0] =
    [.malformed 2, .char 'A', .malformed 1, .malformed 1] := by decide
example : validLength [0x61, 0xC3, 0x28] = 1 := by decide

end Text.Utf8
end CniPlugin
