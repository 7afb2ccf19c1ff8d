import EntityScaffold.Text.Category.Table

/-!
# Classes of characters

The general category of a character, as far as identifiers and words need it, and the classes
built from it:

* `isWord`: letters, numbers of every kind and the low line, the characters of a whole word;
* `isIdentifierStart`, `isIdentifierPart`: what a Java identifier starts with and goes on with;
* `isBlank`: white space, line ends and the four information separators.
-/

namespace EntityScaffold.Text

/-- The general categories that matter here; all others are `other`. -/
inductive Category
  | letter
  | letterNumber
  | digit
  | otherNumber
  | mark
  | connector
  | currency
  | other
  deriving DecidableEq, Repr

namespace Category

/-- The category that the ranges of the character database give. -/
def of (c : Char) : Category :=
  let n := c.toNat
  if letterRanges.holds n then .letter
  else if digitRanges.holds n then .digit
  else if connectorRanges.holds n then .connector
  else if currencyRanges.holds n then .currency
  else if markRanges.holds n then .mark
  else if letterNumberRanges.holds n then .letterNumber
  else if otherNumberRanges.holds n then .otherNumber
  else .other

/-- Letters and numbers of every kind. -/
def isAlphanumeric : Category → Bool
  | letter | letterNumber | digit | otherNumber => true
  | _ => false

end Category

/-- A character of a whole word: a letter, a number or the low line. -/
def isWord (c : Char) : Bool := (Category.of c).isAlphanumeric || c == '_'

/-- A character that a Java identifier starts with. -/
def isIdentifierStart (c : Char) : Bool :=
  match Category.of c with
  | .letter | .letterNumber | .connector | .currency => true
  | _ => false

/-- A character that a Java identifier goes on with. -/
def isIdentifierPart (c : Char) : Bool :=
  match Category.of c with
  | .letter | .letterNumber | .connector | .currency | .mark | .digit => true
  | _ => false

theorem isIdentifierPart_of_start {c : Char} (h : isIdentifierStart c = true) :
    isIdentifierPart c = true := by
  unfold isIdentifierStart at h
  unfold isIdentifierPart
  split at h <;> simp_all

/-- The value of a decimal digit of any script. -/
def digitValue? (c : Char) : Option Nat :=
  (Category.digitRanges.find? fun r => r.1 ≤ c.toNat && c.toNat ≤ r.2).map
    fun r => (c.toNat - r.1) % 10

/-- White space, line ends and the four information separators. -/
def isBlank (c : Char) : Bool :=
  let n := c.toNat
  (0x09 ≤ n && n ≤ 0x0d) || (0x1c ≤ n && n ≤ 0x20) || n == 0x85 || n == 0xa0 || n == 0x1680 ||
    (0x2000 ≤ n && n ≤ 0x200a) || n == 0x2028 || n == 0x2029 || n == 0x202f || n == 0x205f ||
    n == 0x3000

end EntityScaffold.Text
