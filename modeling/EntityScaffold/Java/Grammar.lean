import EntityScaffold.Java.Syntax

/-!
# Reading with a list of tokens

A parser takes tokens off the front of a list or fails. A failure at the end of the list is told
apart: where two readings are tried in turn, it ends both. So is a list that ends right after an
operand, which nothing but more tokens could mend.

`Grammar` names the phrases of Java that contain phrases of their own kind. A rule is written over
a grammar for the phrases inside it and asks that grammar only after it has taken a token, so a
grammar as deep as the list is long reads every text.
-/

namespace EntityScaffold.Java

/-- Why a list of tokens cannot be read. -/
inductive Failure
  /-- No reading fits. -/
  | unexpected
  /-- A token is missing at the end of the list. -/
  | endOfInput
  /-- The list ends right after an operand. -/
  | endAfterOperand
  deriving DecidableEq, Repr

/-- A reader of tokens. -/
abbrev Parser := StateT (List Token) (Except Failure)

namespace Parser

/-- No reading fits. -/
def unexpected {α : Type} : Parser α := throw .unexpected

/-- The next token, which is not taken. -/
def peek : Parser (Option Token) := return (← get).head?

/-- Takes any token. -/
def next : Parser Token := do
  match ← get with
  | [] => throw .endOfInput
  | t :: rest => set rest; return t

/-- Takes a given token. -/
def accept (t : Token) : Parser Unit := do
  if (← next) = t then return else unexpected

/-- Takes the given tokens, one after the other. -/
def acceptAll (ts : List Token) : Parser Unit := ts.forM accept

/-- The given tokens are next. -/
def ahead (ts : List Token) : Parser Bool := return ts.isPrefixOf (← get)

/-- Takes the given tokens if they are next. -/
def accept? (ts : List Token) : Parser Bool := do
  let found ← ahead ts
  if found then modify (·.drop ts.length)
  return found

/-- Goes on only if there are tokens after the operand that was just read. -/
def afterOperand : Parser Unit := do
  if (← get).isEmpty then throw .endAfterOperand

/-- Takes a name. -/
def name : Parser String := do
  match ← next with
  | .identifier s => return s
  | _ => unexpected

/-- The next token is of a class. -/
def nextIs (p : Token → Bool) : Parser Bool := return (← peek).any p

/-- A name and then a given token are next. -/
def nameThen (t : Token) : Parser Bool := do
  match ← get with
  | .identifier _ :: t' :: _ => return t' = t
  | _ => return false

/-- Takes the next token if it is of a class. -/
def next? (p : Token → Bool) : Parser (Option Token) := do
  match ← get with
  | [] => return none
  | t :: rest => if p t then set rest; return some t else return none

/-- Reads one phrase after the other, at most so many, while the tokens ahead ask for one. -/
def atMost {α : Type} (more : List Token → Bool) (p : Parser α) : Nat → Parser (List α)
  | 0 => return []
  | n + 1 => do
    if more (← get) then
      let a ← p
      return a :: (← atMost more p n)
    else return []

/-- Reads one phrase after the other while the tokens ahead ask for one. A phrase takes at least
one token. -/
def many {α : Type} (more : List Token → Bool) (p : Parser α) : Parser (List α) := do
  atMost more p ((← get).length + 1)

/-- Phrases up to a token, which is not taken. -/
def manyUntil {α : Type} (stop : Token) (p : Parser α) : Parser (List α) :=
  many (fun ts => ts.head? != some stop) p

/-- At least one phrase, with a token between each two. -/
def sepBy {α : Type} (sep : Token) (p : Parser α) : Parser (List α) := do
  let first ← p
  let more ← many (fun ts => ts.head? == some sep) (do accept sep; p)
  return first :: more

/-- A reading that may not fit, and then takes nothing. The end of the tokens is no such case. -/
def attempt {α : Type} (p : Parser α) : Parser (Option α) := fun ts =>
  match p ts with
  | .ok (a, rest) => .ok (some a, rest)
  | .error .unexpected => .ok (none, ts)
  | .error fault => .error fault

/-- A dotted name. -/
def dottedName : Parser (List String) := sepBy .dot name

/-- Pairs of brackets, counted. -/
def rank : Parser Nat := do
  let pairs ← many (fun ts => [Token.openBracket, .closeBracket].isPrefixOf ts)
    (acceptAll [.openBracket, .closeBracket])
  return pairs.length

end Parser

/-- Readers of the phrases that contain phrases of their own kind. -/
structure Grammar where
  /-- A class name with type arguments, without brackets. -/
  reference : Parser TypeRef
  /-- A value in an annotation. -/
  elementValue : Parser ElementValue
  /-- An expression. -/
  expression : Parser Expr
  /-- An expression that assigns nothing. -/
  conditional : Parser Expr
  /-- An operand with the operators that touch it. -/
  operand : Parser Expr
  /-- What a variable starts with. -/
  initial : Parser Unit
  /-- A statement. -/
  statement : Parser Unit
  /-- A statement or a declaration in a block. -/
  blockItem : Parser Unit
  /-- A member of a class; stray semicolons are none. -/
  classMember : Parser (Option Member)
  /-- A member of an interface. -/
  interfaceMember : Parser (Option Member)
  /-- A member of an annotation type. -/
  annotationMember : Parser (Option Member)

/-- The grammar of phrases that contain nothing. -/
def Grammar.empty : Grammar where
  reference := .unexpected
  elementValue := .unexpected
  expression := .unexpected
  conditional := .unexpected
  operand := .unexpected
  initial := .unexpected
  statement := .unexpected
  blockItem := .unexpected
  classMember := .unexpected
  interfaceMember := .unexpected
  annotationMember := .unexpected

end EntityScaffold.Java
