import EntityScaffold.Java.Token
import EntityScaffold.Java.Escape

/-!
# Reading tokens

`tokens` cuts a text into tokens, after its Unicode escapes are undone. Blanks and comments
stand between tokens. A step either skips some characters or reads one token, and always leaves
less than it found, so the reading ends.

* A word is as long as it can be, and so is a symbol.
* A quoted literal ends at the next quote of its kind that no backslash escapes, on whatever line
  that is.
* A number takes low lines inside its digits; its suffix belongs to it.
-/

namespace EntityScaffold.Java.Lexer

open Text

/-- Why a text has no tokens. -/
inductive Fault
  | escape
  | unterminatedLiteral
  | unterminatedComment
  | illegalEscape (c : Char)
  | invalidHexFloat
  | strayCharacter (c : Char)
  deriving DecidableEq, Repr

/-- A text cut in two: what was taken, and the rest. -/
abbrev Cut := List Char × List Char

/-- One more character taken, if there is one. -/
def takeOne (cut : Cut) : Cut :=
  match cut.2 with
  | [] => cut
  | c :: rest => (cut.1 ++ [c], rest)

/-- One more character taken if it is in the list. -/
def takeOneOf (cs : List Char) (cut : Cut) : Cut :=
  match cut.2 with
  | [] => cut
  | c :: rest => if c ∈ cs then (cut.1 ++ [c], rest) else cut

/-- More characters taken by a reader of the rest. -/
def takeBy (f : List Char → Cut) (cut : Cut) : Cut :=
  (cut.1 ++ (f cut.2).1, (f cut.2).2)

/-- Digits of a class, with low lines before and between them. The first argument holds, backwards,
the low lines that a digit has yet to follow. -/
def digitRun (isDigit : Char → Bool) (pending : List Char) : List Char → Cut
  | [] => ([], pending.reverse)
  | c :: rest =>
    if isDigit c then
      (pending.reverse ++ c :: (digitRun isDigit [] rest).1, (digitRun isDigit [] rest).2)
    else if c = '_' then digitRun isDigit (c :: pending) rest
    else ([], pending.reverse ++ c :: rest)

/-- Digits of a class and then, if the next character that is no low line is the suffix of a long
number, one character more. -/
def integer (isDigit : Char → Bool) (s : List Char) : Cut :=
  let run := digitRun isDigit [] s
  match run.2.dropWhile (· == '_') with
  | c :: _ => if c = 'l' ∨ c = 'L' then takeOne run else run
  | [] => run

def isDecimal (c : Char) : Bool := c.isDigit
def isOctal (c : Char) : Bool := '0' ≤ c && c ≤ '7'
def isBinary (c : Char) : Bool := c == '0' || c == '1'
def isHex (c : Char) : Bool :=
  c.isDigit || ('a' ≤ c && c ≤ 'f') || ('A' ≤ c && c ≤ 'F')

/-- The exponent of a decimal number, if there is one. -/
def decimalExponent (cut : Cut) : Cut :=
  match cut.2 with
  | c :: _ =>
    if c = 'e' ∨ c = 'E' then takeBy (integer isDecimal) (takeOneOf ['-', '+'] (takeOne cut))
    else cut
  | [] => cut

/-- A decimal number: digits, then a fraction, an exponent and a suffix, each if it is there. -/
def decimal (s : List Char) : Cut :=
  let whole := integer isDecimal s
  match whole.2 with
  | '.' :: _ =>
    takeOneOf ['f', 'F', 'd', 'D']
      (decimalExponent (takeBy (integer isDecimal) (takeOne whole)))
  | _ => takeOneOf ['f', 'F', 'd', 'D'] (decimalExponent whole)

/-- A hexadecimal number after its mark. With a fraction it must have an exponent. -/
def hexadecimal (cut : Cut) : Except Fault Cut :=
  let whole := takeBy (integer isHex) cut
  let exponent (c : Cut) : Cut :=
    takeOneOf ['f', 'F', 'd', 'D']
      (takeBy (integer isDecimal) (takeOneOf ['-', '+'] (takeOne c)))
  match whole.2 with
  | 'p' :: _ | 'P' :: _ => .ok (exponent whole)
  | '.' :: _ =>
    let fraction := takeBy (integer isHex) (takeOne whole)
    match fraction.2 with
    | 'p' :: _ | 'P' :: _ => .ok (exponent fraction)
    | _ => .error .invalidHexFloat
  | _ => .ok whole

/-- A number that starts the text. -/
def number (s : List Char) : Except Fault Cut :=
  match s with
  | '0' :: c :: rest =>
    if c = 'x' ∨ c = 'X' then hexadecimal (['0', c], rest)
    else if c = 'b' ∨ c = 'B' then .ok (takeBy (integer isBinary) (['0', c], rest))
    else if isOctal c then .ok (takeBy (integer isOctal) (['0'], c :: rest))
    else .ok (decimal s)
  | _ => .ok (decimal s)

/-- Characters that a backslash makes special in a quoted literal. -/
def escapable : List Char :=
  ['b', 't', 'n', 'f', 'r', 'u', '"', '\'', '\\', '0', '1', '2', '3', '4', '5', '6', '7']

/-- The rest of a quoted literal, up to and with its closing quote. -/
def quotedRest (quote : Char) : List Char → Except Fault Cut
  | [] => .error .unterminatedLiteral
  | '\\' :: rest =>
    match rest with
    | [] => .error .unterminatedLiteral
    | c :: rest =>
      if c ∈ escapable then
        (quotedRest quote rest).map fun cut => ('\\' :: c :: cut.1, cut.2)
      else .error (.illegalEscape c)
  | c :: rest =>
    if c = quote then .ok ([c], rest)
    else (quotedRest quote rest).map fun cut => (c :: cut.1, cut.2)

/-- What follows a comment that runs to the end of its line. -/
def afterLine (s : List Char) : List Char := (s.dropWhile (· != '\n')).drop 1

/-- What follows the end of a comment that is closed. -/
def afterBlock : List Char → Except Fault (List Char)
  | [] => .error .unterminatedComment
  | '*' :: '/' :: rest => .ok rest
  | _ :: rest => afterBlock rest

/-- The symbol that starts the text, if one does. -/
def operator? (s : List Char) : Option (String × List Char) :=
  (Token.operators.find? fun op => op.toList.isPrefixOf s).map fun op => (op, s.drop op.length)

/-- What one step finds: something to skip, or a token. -/
abbrev Found := Option Token × List Char

/-- A literal that a cut holds. -/
def literal (cut : Cut) : Found := (some (.literal (.ofList cut.1)), cut.2)

/-- The step that starts at a character. -/
def step (c : Char) (rest : List Char) : Except Fault Found :=
  let s := c :: rest
  if isBlank c then .ok (none, rest.dropWhile isBlank)
  else if ['/', '/'].isPrefixOf s then .ok (none, afterLine rest)
  else if ['/', '*'].isPrefixOf s then (afterBlock (rest.drop 1)).map fun r => (none, r)
  -- three dots, a number that starts with a dot, and a lone dot, in this order
  else if ['.', '.', '.'].isPrefixOf s then .ok (some (.symbol "..."), s.drop 3)
  else if c = '@' then .ok (some .atSign, rest)
  else if c = '.' ∧ (rest.head?.any Char.isDigit) then .ok (literal (decimal s))
  else if c ∈ Token.separators then .ok (some (.symbol (.singleton c)), rest)
  else if c = '\'' ∨ c = '"' then
    (quotedRest c rest).map fun cut => literal (c :: cut.1, cut.2)
  else if c.isDigit then (number s).map literal
  else if isIdentifierStart c then
    .ok (some (.ofWord (.ofList (c :: rest.takeWhile isIdentifierPart))),
      rest.dropWhile isIdentifierPart)
  else
    -- of the symbols that fit, the longest
    match operator? s with
    | some (op, r) => .ok (some (.symbol op), r)
    | none => .error (.strayCharacter c)

/-- The tokens of a text in at most so many steps. -/
def scan : Nat → List Char → Except Fault (List Token)
  | _, [] => .ok []
  | 0, _ :: _ => .ok []
  | n + 1, c :: rest => do
    let (found, r) ← step c rest
    let more ← scan n r
    return found.toList ++ more

/-- The tokens of a text. A step takes at least one character, so the length of the text bounds
their number. -/
def tokens (s : String) : Except Fault (List Token) :=
  match Escape.unescape s.toList with
  | none => .error .escape
  | some cs => scan cs.length cs

end EntityScaffold.Java.Lexer
