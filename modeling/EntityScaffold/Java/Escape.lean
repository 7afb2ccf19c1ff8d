import EntityScaffold.Text.Integer

/-!
# Unicode escapes

A backslash, one or more letters `u` and four hexadecimal digits stand for one UTF-16 unit, and
are undone before anything else is read. A backslash takes the character after it along, so
that an escaped backslash starts no escape, and what an escape yields starts none either.
-/

namespace EntityScaffold.Java.Escape

/-- Units of a text: its characters, or units that escapes gave. -/
abbrev Units := List Nat

/-- The first half of a pair that stands for one character. -/
def isHigh (n : Nat) : Bool := 0xd800 ≤ n && n < 0xdc00

/-- The second half of a pair that stands for one character. -/
def isLow (n : Nat) : Bool := 0xdc00 ≤ n && n < 0xe000

/-- Units as characters. Two halves in a row are one character, a half alone is replaced. -/
def characters : Units → List Char
  | [] => []
  | [n] => [if isHigh n || isLow n then '\ufffd' else Char.ofNat n]
  | n :: m :: rest =>
    if isHigh n && isLow m then
      Char.ofNat (0x10000 + (n - 0xd800) * 0x400 + (m - 0xdc00)) :: characters rest
    else
      (if isHigh n || isLow n then '\ufffd' else Char.ofNat n) :: characters (m :: rest)

/-- The unit that at most four hexadecimal digits spell. -/
def unit? (digits : List Char) : Option Nat :=
  match Text.Integer.read? 16 digits with
  | some (.ofNat n) => some n
  | _ => none

/-- Where a reader of escapes stands: in plain text, after a backslash, or after the letters `u` of
an escape, and then with the number of digits still to come and those that were read. -/
inductive Place
  | plain
  | backslash
  | marked
  | digits (missing : Nat) (read : List Char)

/-- Undoes the escapes of a text. The second argument holds, backwards, the plain text since the
last escape. An escape that the end of the text cuts off before its digits is kept as written, after
a second copy of that plain text. -/
def units (place : Place) (since : List Char) : List Char → Option Units
  | [] =>
    match place with
    | .marked =>
      let plain := (since.dropWhile (· == 'u')).drop 1
      some ((plain.reverse ++ since.reverse).map Char.toNat)
    | .digits _ read => do return [← unit? read.reverse]
    | _ => some (since.reverse.map Char.toNat)
  | c :: rest =>
    match place with
    | .plain => units (if c = '\\' then .backslash else .plain) (c :: since) rest
    | .backslash => units (if c = 'u' then .marked else .plain) (c :: since) rest
    | .marked =>
      if c = 'u' then units .marked (c :: since) rest
      else do
        let plain := (since.dropWhile (· == 'u')).drop 1
        let tail ← units (.digits 3 [c]) [] rest
        return plain.reverse.map Char.toNat ++ tail
    | .digits 0 read => do
      let n ← unit? read.reverse
      let tail ← units (if c = '\\' then .backslash else .plain) [c] rest
      return n :: tail
    | .digits (k + 1) read => units (.digits k (c :: read)) [] rest

/-- The text with its escapes undone, unless one has no digits. -/
def unescape (s : List Char) : Option (List Char) := (units .plain [] s).map characters

end EntityScaffold.Java.Escape
