/-!
# Texts in bytes

A text is kept in UTF-8. Bytes are read one by one: the first byte of a character tells how many
follow and bounds the next one. Where the bytes are no text the replacement character stands for as
many of them as start a character. All line ends are read as newlines.
-/

namespace EntityScaffold.Text

abbrev Bytes := List UInt8

/-- The bytes of a string. -/
def encode (s : String) : Bytes := s.toUTF8.data.toList

/-- The character that stands for bytes which are no text. -/
def replacement : Char := '\uFFFD'

/-- A character whose first bytes are read. -/
structure Partly where
  /-- The bits that are known. -/
  bits : Nat
  /-- The number of bytes that are owed. -/
  owed : Nat
  /-- The bounds of the next byte. -/
  least : Nat
  greatest : Nat
  deriving DecidableEq, Repr

/-- What the first byte of a character starts: the characters it completes, or a character that is
read partly. -/
def firstByte (b : Nat) : List Char × Option Partly :=
  if b < 0x80 then ([Char.ofNat b], none)
  else if 0xc2 ≤ b ∧ b ≤ 0xdf then ([], some ⟨b - 0xc0, 1, 0x80, 0xbf⟩)
  else if b = 0xe0 then ([], some ⟨0, 2, 0xa0, 0xbf⟩)
  else if b = 0xed then ([], some ⟨0xd, 2, 0x80, 0x9f⟩)
  else if 0xe1 ≤ b ∧ b ≤ 0xef then ([], some ⟨b - 0xe0, 2, 0x80, 0xbf⟩)
  else if b = 0xf0 then ([], some ⟨0, 3, 0x90, 0xbf⟩)
  else if 0xf1 ≤ b ∧ b ≤ 0xf3 then ([], some ⟨b - 0xf0, 3, 0x80, 0xbf⟩)
  else if b = 0xf4 then ([], some ⟨4, 3, 0x80, 0x8f⟩)
  else ([replacement], none)

/-- What one more byte gives. A byte that does not continue a character starts one. -/
def nextByte (p : Option Partly) (b : Nat) : List Char × Option Partly :=
  match p with
  | none => firstByte b
  | some p =>
    if p.least ≤ b ∧ b ≤ p.greatest then
      let bits := p.bits * 64 + (b - 0x80)
      if p.owed ≤ 1 then ([Char.ofNat bits], none)
      else ([], some ⟨bits, p.owed - 1, 0x80, 0xbf⟩)
    else
      let (cs, q) := firstByte b
      (replacement :: cs, q)

/-- The characters of bytes, after a character that is read partly. -/
def decodeAfter : Option Partly → Bytes → List Char
  | none, [] => []
  | some _, [] => [replacement]
  | p, b :: bs =>
    let (cs, p) := nextByte p b.toNat
    cs ++ decodeAfter p bs

/-- The text with a newline for every line end. -/
def plainNewlines : List Char → List Char
  | [] => []
  | '\r' :: '\n' :: rest => '\n' :: plainNewlines rest
  | '\r' :: rest => '\n' :: plainNewlines rest
  | c :: rest => c :: plainNewlines rest

/-- The text that bytes hold. -/
def decode (bytes : Bytes) : String := String.ofList (plainNewlines (decodeAfter none bytes))

end EntityScaffold.Text
