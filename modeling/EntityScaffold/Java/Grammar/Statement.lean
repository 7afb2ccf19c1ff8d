import EntityScaffold.Java.Grammar.Declaration

/-!
# Statements

Statements are checked and not kept. An item of a block that starts with a name is first read as
the declaration of variables, and as a statement where that does not fit.
-/

namespace EntityScaffold.Java.Grammar

open Java.Parser Java.Token

/-- Variables of one type, up to the semicolon. -/
def localVariables (g : Grammar) : Parser Unit := do
  variableModifiers g
  let _ ← type g
  let _ ← sepBy comma (declarator g)
  accept semicolon

/-- Expressions with commas between them. -/
def expressions (g : Grammar) : Parser Unit := do
  let _ ← sepBy comma g.expression

/-- An optional phrase, which is there unless a given token is next. -/
def unlessAt (t : Token) (p : Parser Unit) : Parser Unit := do
  if ← ahead [t] then return else p

/-- Condition and steps of a loop after its start. -/
def loopTail (g : Grammar) : Parser Unit := do
  accept semicolon
  unlessAt semicolon (do let _ ← g.expression)
  accept semicolon
  unlessAt closeParen (expressions g)

/-- What controls a loop that declares a variable. -/
def variableLoop (g : Grammar) : Parser Unit := do
  variableModifiers g
  let _ ← type g
  let _ ← name
  let _ ← rank
  if ← accept? [colon] then
    let _ ← g.expression
  else
    unlessAt semicolon do
      if ← accept? [equals] then g.initial
      let _ ← moreDeclarators g
    loopTail g

/-- What controls a loop. -/
def loop (g : Grammar) : Parser Unit := do
  match ← attempt (variableLoop g) with
  | some _ => return
  | none =>
    unlessAt semicolon (expressions g)
    loopTail g

/-- A case of a choice, or its default, is next. -/
def caseStarts (ts : List Token) : Bool :=
  ts.head? == some (.keyword "case") || ts.head? == some (.keyword "default")

/-- A label of a choice. -/
def caseLabel (g : Grammar) : Parser Unit := do
  match ← next with
  | .keyword "case" =>
    if ← nameThen colon then
      let _ ← name
    else
      let _ ← g.expression
    accept colon
  | .keyword "default" => accept colon
  | _ => unexpected

/-- Labels of a choice and the items under them. -/
def caseGroup (g : Grammar) : Parser Unit := do
  caseLabel g
  let _ ← many caseStarts (caseLabel g)
  let _ ← many (fun ts => !caseStarts ts && ts.head? != some closeBrace) g.blockItem

/-- What handles an exception. -/
def catchClause (g : Grammar) : Parser Unit := do
  acceptAll [.keyword "catch", openParen]
  variableModifiers g
  let _ ← sepBy (.symbol "|") dottedName
  let _ ← name
  accept closeParen
  block g

/-- Handlers of exceptions, as many as there are. -/
def catchClauses (g : Grammar) : Parser Bool := do
  let found ← many (fun ts => ts.head? == some (.keyword "catch")) (catchClause g)
  return !found.isEmpty

/-- What is done at the end in every case, if it is there. -/
def finally? (g : Grammar) : Parser Bool := do
  if ← accept? [.keyword "finally"] then
    block g
    return true
  else return false

/-- A resource that is closed at the end. -/
def resource (g : Grammar) : Parser Unit := do
  variableModifiers g
  let _ ← referenceType g
  let _ ← rank
  let _ ← name
  let _ ← rank
  accept equals
  let _ ← g.expression

/-- Resources in parentheses. One semicolon may follow the last. -/
def resources (g : Grammar) : Parser Unit := do
  accept openParen
  resource g
  let _ ← many
    (fun ts => ts.head? == some semicolon && (ts.drop 1).head? != some closeParen)
    (do accept semicolon; resource g)
  let _ ← accept? [semicolon]
  accept closeParen

/-- A jump, to a label if it names one. -/
def jump : Parser Unit := do
  let _ ← next? isIdentifier
  accept semicolon

/-- An expression as a statement. -/
def expressionStatement (g : Grammar) : Parser Unit := do
  let _ ← expressionPhrase g
  accept semicolon

/-- What follows the word that starts a statement. -/
def statementAfter (g : Grammar) : String → Parser Unit
  | "if" => do
    let _ ← parenthesized g
    g.statement
    if ← accept? [.keyword "else"] then g.statement
  | "assert" => do
    let _ ← g.expression
    if ← accept? [colon] then
      let _ ← g.expression
    accept semicolon
  | "switch" => do
    let _ ← parenthesized g
    accept openBrace
    let _ ← many caseStarts (caseGroup g)
    accept closeBrace
  | "while" => do
    let _ ← parenthesized g
    g.statement
  | "do" => do
    g.statement
    accept (.keyword "while")
    let _ ← parenthesized g
    accept semicolon
  | "for" => do
    accept openParen
    loop g
    accept closeParen
    g.statement
  | "break" => jump
  | "continue" => jump
  | "return" => do
    unlessAt semicolon (do let _ ← g.expression)
    accept semicolon
  | "throw" => do
    let _ ← g.expression
    accept semicolon
  | "synchronized" => do
    let _ ← parenthesized g
    block g
  | "try" => do
    -- without resources there must be a handler, or something to do at the end
    if ← ahead [openBrace] then
      block g
      let caught ← catchClauses g
      let ended ← finally? g
      if !caught && !ended then unexpected
    else
      resources g
      block g
      let _ ← catchClauses g
      let _ ← finally? g
  | _ => unexpected

/-- Words that start a statement. -/
def statementWords : List String :=
  ["if", "assert", "switch", "while", "do", "for", "break", "continue", "return", "throw",
   "synchronized", "try"]

/-- A statement. -/
def statementPhrase (g : Grammar) : Parser Unit := do
  match ← get with
  | .symbol "\x7b" :: _ => block g
  | .symbol ";" :: _ => accept semicolon
  | .identifier _ :: .symbol ":" :: _ =>
    let _ ← name
    accept colon
    g.statement
  | .keyword s :: _ =>
    if s ∈ statementWords then
      let _ ← next
      statementAfter g s
    else expressionStatement g
  | _ => expressionStatement g

/-- Tokens after the parenthesis that closes so many open ones. -/
def afterParens : Nat → List Token → List Token
  | 0, ts => ts
  | _, [] => []
  | n + 1, t :: ts =>
    if t = openParen then afterParens (n + 2) ts
    else if t = closeParen then afterParens n ts
    else afterParens (n + 1) ts

/-- Tokens after the dots and names that go on with a dotted name. -/
def afterDots : List Token → List Token
  | .symbol "." :: _ :: ts => afterDots ts
  | ts => ts

/-- Tokens after the annotation that they start with. -/
def annotationRest (ts : List Token) : List Token :=
  match afterDots (ts.drop 2) with
  | .symbol "(" :: rest => afterParens 1 rest
  | rest => rest

/-- What an item of a block is, as far as its first tokens tell. -/
inductive Item
  | declaration
  | variables
  | statement
  | variablesOrStatement
  deriving DecidableEq

/-- What an item of a block is, looking past at most so many modifiers and annotations. -/
def itemAfter (annotated : Bool) : Nat → List Token → Item
  | 0, _ => .statement
  | _, [] => if annotated then .variables else .statement
  | n + 1, t :: ts =>
    if t.isModifier then
      if t = .keyword "final" then itemAfter annotated n ts else .declaration
    else if annotationStarts (t :: ts) then itemAfter true n (annotationRest (t :: ts))
    else if t = .keyword "class" ∨ t = .keyword "enum" ∨ t = .keyword "interface" ∨ t = atSign then
      .declaration
    else if annotated || t.isBasicType then .variables
    else if t.isIdentifier then .variablesOrStatement
    else .statement

/-- What an item of a block is. -/
def itemAhead (ts : List Token) : Item :=
  match ts with
  | .identifier _ :: .symbol ":" :: _ => .statement
  | .keyword "synchronized" :: _ => .statement
  | _ => itemAfter false (ts.length + 1) ts

/-- A statement or a declaration in a block. -/
def blockItemPhrase (g : Grammar) : Parser Unit := do
  match itemAhead (← get) with
  | .declaration =>
    let _ ← typeDecl g
  | .variables => localVariables g
  | .statement => statementPhrase g
  | .variablesOrStatement =>
    match ← attempt (localVariables g) with
    | some _ => return
    | none => statementPhrase g

end EntityScaffold.Java.Grammar
