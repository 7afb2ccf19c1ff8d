import EntityScaffold.Text.Trim

/-!
# Integers in texts

An integer is read from a whole text: blanks around it, a sign, in base sixteen an optional `0x`,
then digits with single low lines between them. Decimal digits of any script count.
-/

namespace EntityScaffold.Text.Integer

/-- The value of a digit below a base of at most sixteen. -/
def digit? (base : Nat) (c : Char) : Option Nat :=
  let value :=
    if 'a' ≤ c ∧ c ≤ 'f' then some (c.toNat - 'a'.toNat + 10)
    else if 'A' ≤ c ∧ c ≤ 'F' then some (c.toNat - 'A'.toNat + 10)
    else digitValue? c
  value.filter (· < base)

/-- Digits with single low lines between them, after a value read so far. -/
def digits? (base : Nat) (value : Nat) : List Char → Option Nat
  | [] => some value
  | '_' :: c :: rest => do digits? base (value * base + (← digit? base c)) rest
  | c :: rest => do digits? base (value * base + (← digit? base c)) rest

/-- At least one digit; a low line may follow a mark of the base. -/
def magnitude? (base : Nat) : List Char → Option Nat
  | '0' :: x :: rest =>
    if base = 16 ∧ (x = 'x' ∨ x = 'X') then
      match rest with
      | [] => none
      | _ => digits? base 0 rest
    else digits? base 0 ('0' :: x :: rest)
  | [] => none
  | '_' :: _ => none
  | rest => digits? base 0 rest

/-- The integer that a whole text spells in a base. -/
def read? (base : Nat) (s : List Char) : Option Int :=
  match trim isBlank s with
  | '-' :: rest => (magnitude? base rest).map fun n => -(n : Int)
  | '+' :: rest => (magnitude? base rest).map Int.ofNat
  | rest => (magnitude? base rest).map Int.ofNat

end EntityScaffold.Text.Integer
