import EntityScaffold.Java.Grammar.Type

/-!
# Expressions

Operands with the operators that touch them, chains of operators between operands, and what may
end an expression: a choice, a function, the name of a method, an assignment. A parenthesis may
open a function, a cast or an expression, and is tried in that order.
-/

namespace EntityScaffold.Java.Grammar

open Java.Parser Java.Token

/-- An operator and what follows it. -/
inductive Link
  | operand (op : String) (right : Expr)
  | test (type : TypeRef)

/-- The operator of a link. -/
def Link.op : Link → String
  | .operand op _ => op
  | .test _ => "instanceof"

/-- Cuts links before each one whose operator is in a list. -/
def cutLinks (ops : List String) : List Link → List Link × List (Link × List Link)
  | [] => ([], [])
  | link :: rest =>
    let (run, runs) := cutLinks ops rest
    if link.op ∈ ops then ([], (link, run) :: runs) else (link :: run, runs)

/-- An operand and links as one expression. The weakest operators come on top, and of equal ones
the last. -/
def chain : List (List String) → Expr → List Link → Expr
  | [], first, _ => first
  | ops :: stronger, first, links =>
    let (run, runs) := cutLinks ops links
    runs.foldl
      (fun left (link, run) =>
        match link with
        | .operand op right => .binary op left (chain stronger right run)
        | .test type => .instanceOf left type)
      (chain stronger first run)

/-- An expression in parentheses. -/
def parenthesized (g : Grammar) : Parser Expr := do
  accept openParen
  let e ← g.expression
  accept closeParen
  return e

/-- Arguments in parentheses. -/
def arguments (g : Grammar) : Parser (List Expr) := do
  accept openParen
  if ← accept? [closeParen] then return []
  else
    let es ← sepBy comma g.expression
    accept closeParen
    return es

/-- The body of a class. -/
def classBody (g : Grammar) : Parser (List Member) := do
  accept openBrace
  let found ← manyUntil closeBrace g.classMember
  accept closeBrace
  return found.filterMap id

/-- A block of statements. -/
def block (g : Grammar) : Parser Unit := do
  accept openBrace
  let _ ← manyUntil closeBrace g.blockItem
  accept closeBrace

/-- Values of an array in braces; one comma may follow the last value, or stand alone. -/
def arrayValues (g : Grammar) : Parser Unit := do
  accept openBrace
  if ← accept? [comma] then accept closeBrace
  else if ← accept? [closeBrace] then return
  else
    g.initial
    let _ ← many
      (fun ts => ts.head? == some comma && (ts.drop 1).head? != some closeBrace)
      (do accept comma; g.initial)
    let _ ← accept? [comma]
    accept closeBrace

/-- The body of a function after its parameters. -/
def functionBody (g : Grammar) : Parser Unit := do
  accept arrow
  if ← ahead [openBrace] then block g
  else
    let _ ← g.expression

/-- A function with its parameters in parentheses. -/
def function (g : Grammar) : Parser Expr := do
  match ← get with
  -- parameters without types
  | .symbol "(" :: .identifier _ :: .symbol "," :: _ =>
    accept openParen
    let _ ← sepBy comma name
    accept closeParen
  | _ =>
    let _ ← parameters g
  functionBody g
  return .code "LambdaExpression"

/-- A cast. -/
def cast (g : Grammar) : Parser Expr := do
  accept openParen
  let t ← type g
  accept closeParen
  return .cast t (← g.operand)

/-- What follows `super`: a call of a constructor, or a member of the superclass. -/
def superMember (g : Grammar) : Parser String := do
  if ← accept? [dot] then
    if ← ahead [openAngle] then
      let _ ← exactArguments g
    let _ ← name
    if ← ahead [openParen] then
      let _ ← arguments g
      return "SuperMethodInvocation"
    else return "SuperMemberReference"
  else
    let _ ← arguments g
    return "SuperConstructorInvocation"

/-- A call with type arguments in front of the method's name. -/
def genericCall (g : Grammar) : Parser String := do
  if ← accept? [.keyword "super"] then superMember g
  else
    let _ ← name
    let _ ← arguments g
    return "MethodInvocation"

/-- Arguments of a creation and a class body, if there is one. -/
def creation (g : Grammar) : Parser Unit := do
  let _ ← arguments g
  if ← ahead [openBrace] then
    let _ ← classBody g

/-- Type arguments, or an empty pair of angle brackets. -/
def argumentsOrNone (g : Grammar) : Parser (List TypeArgument) := do
  if ← accept? [openAngle, closeAngle] then return [] else typeArguments g

/-- Sizes of an array, or its values. -/
def arrayCreation (g : Grammar) : Parser Unit := do
  if ← ahead [openBracket, closeBracket] then
    let _ ← rank
    arrayValues g
  else
    let _ ← many
      (fun ts => ts.head? == some openBracket && (ts.drop 1).head? != some closeBracket)
      (do accept openBracket; let _ ← g.expression; accept closeBracket)
    let _ ← rank

/-- What follows `new`. -/
def creator (g : Grammar) : Parser String := do
  if ← nextIs isBasicType then
    let _ ← basicType
    arrayCreation g
    return "ArrayCreator"
  else
    let generic ← ahead [openAngle]
    if generic then
      let _ ← exactArguments g
    let _ ← dottedType (argumentsOrNone g)
    if ← ahead [openBracket] then
      -- type arguments in front of the name are those of a constructor
      if generic then unexpected
      arrayCreation g
      return "ArrayCreator"
    else
      creation g
      return "ClassCreator"

/-- The creation of an object that belongs to another one, after `new`. -/
def innerCreator (g : Grammar) : Parser String := do
  if ← ahead [openAngle] then
    let _ ← exactArguments g
  let _ ← name
  if ← ahead [openAngle] then
    if ← accept? [openAngle, closeAngle] then pure ()
    else
      let _ ← exactArguments g
  creation g
  return "InnerClassCreator"

/-- What follows a dotted name. The last name is the member, except where all of them name a
type. -/
def nameTail (g : Grammar) (path : List String) : Parser Operand := do
  let qualifier := path.dropLast
  let member := path.getLast?.getD ""
  if ← accept? [openBracket, closeBracket] then
    let _ ← rank
    acceptAll [dot, .keyword "class"]
    return .classOf qualifier member
  else if ← ahead [openParen] then return .call qualifier member (← arguments g)
  else if ← accept? [dot, .keyword "class"] then return .classOf qualifier member
  else if ← accept? [dot, .keyword "this"] then return .this (some path)
  else if ← ahead [dot, openAngle] then
    accept dot
    let _ ← exactArguments g
    return .special (← genericCall g)
  else if ← accept? [dot, .keyword "new"] then return .special (← innerCreator g)
  else if ← ahead [dot, .keyword "super", openParen] then
    acceptAll [dot, .keyword "super"]
    let _ ← arguments g
    return .special "SuperConstructorInvocation"
  else return .name qualifier member

/-- A dot and a name are next. -/
def dotName : List Token → Bool
  | .symbol "." :: .identifier _ :: _ => true
  | _ => false

/-- An expression without operators around it. In place of an operand stands, for a parenthesis,
the expression inside. -/
def head (g : Grammar) : Parser (Operand ⊕ Expr) := do
  match (← get).head? with
  | some (.literal s) =>
    let _ ← next
    return .inl (.literal s)
  | some (.symbol "(") => return .inr (← parenthesized g)
  | some (.symbol "<") =>
    let _ ← exactArguments g
    if ← accept? [.keyword "this"] then
      let _ ← arguments g
      return .inl (.special "ExplicitConstructorInvocation")
    else return .inl (.special (← genericCall g))
  | some (.identifier _) =>
    let first ← name
    let more ← many dotName (do accept dot; name)
    return .inl (← nameTail g (first :: more))
  | some (.keyword s) =>
    if s ∈ basicTypes then
      let _ ← next
      let n ← rank
      acceptAll [dot, .keyword "class"]
      return .inl (.classOfBasic s n)
    else
      let _ ← next
      match s with
      | "this" =>
        if ← ahead [openParen] then
          let _ ← arguments g
          return .inl (.special "ExplicitConstructorInvocation")
        else return .inl (.this none)
      | "super" =>
        if ← ahead [doubleColon] then return .inl (.special "super")
        else return .inl (.special (← superMember g))
      | "new" => return .inl (.special (← creator g))
      | "void" =>
        acceptAll [dot, .keyword "class"]
        return .inl .classOfVoid
      | _ => unexpected
  | _ => unexpected

/-- A member or an element taken from an operand. -/
def selector (g : Grammar) : Parser Selector := do
  if ← accept? [openBracket] then
    let e ← g.expression
    accept closeBracket
    return .index e
  else
    accept dot
    match (← get).head? with
    | some (.identifier s) =>
      let _ ← next
      if ← ahead [openParen] then return .call s (← arguments g) else return .field s
    | some (.symbol "<") =>
      let _ ← exactArguments g
      return .special (← genericCall g)
    | some (.keyword "super") =>
      let _ ← next
      if ← ahead [doubleColon] then return .special "super"
      else return .special (← superMember g)
    | some (.keyword "this") =>
      let _ ← next
      return .special "This"
    | some (.keyword "new") =>
      let _ ← next
      return .special (← innerCreator g)
    | _ => unexpected

/-- A member or an element is taken next. -/
def selectorStarts (ts : List Token) : Bool :=
  ts.head? == some openBracket || ts.head? == some dot

/-- The operand with the operators and members that touch it. Those of an expression in
parentheses give way to the ones around the parentheses. -/
def touched (before after : List String) (members : List Selector) : Operand ⊕ Expr → Expr
  | .inl h => .operand h before after members
  | .inr (.operand h _ _ _) => .operand h before after members
  | .inr e => e

/-- Symbols of a list, as many as there are. -/
def symbols (ops : List String) : Parser (List String) := do
  let found ← many (fun ts => ts.head?.any (isSymbolIn ops)) next
  return found.filterMap fun | .symbol s => some s | _ => none

/-- An operand with the operators and members that touch it, and no function or cast. Tokens must
follow the operand itself and each of its members. -/
def plainOperand (g : Grammar) (before : List String) : Parser Expr := do
  let h ← head g
  afterOperand
  let members ← many selectorStarts (do
    let member ← selector g
    afterOperand
    return member)
  let after ← symbols postfixOps
  return touched before after members h

/-- An operand with the operators that touch it. -/
def operandPhrase (g : Grammar) : Parser Expr := do
  let before ← symbols prefixOps
  if ← ahead [openParen] then
    match ← attempt (function g) with
    | some e => return e
    | none =>
      -- no function: a cast, or else an expression in parentheses
      match ← attempt (cast g) with
      | some e => return e
      | none => plainOperand g before
  else plainOperand g before

/-- An operator between operands is next. -/
def linkStarts (ts : List Token) : Bool :=
  ts.head?.any fun t => isSymbolIn binaryOps t || t == .keyword "instanceof"

/-- The operator that closing angle brackets in a row are. -/
def shift : Parser String := do
  if ← accept? [closeAngle] then
    if ← accept? [closeAngle] then return ">>>" else return ">>"
  else return ">"

/-- An operator and the operand after it. -/
def link (g : Grammar) : Parser Link := do
  match ← next with
  | .keyword "instanceof" => return .test (← type g)
  | .symbol ">" =>
    let op ← shift
    return .operand op (← g.operand)
  | .symbol op => return .operand op (← g.operand)
  | _ => unexpected

/-- Operands with operators between them. -/
def operators (g : Grammar) : Parser Expr := do
  let first ← operandPhrase g
  let links ← many linkStarts (link g)
  return chain binaryLevels first links

/-- What follows the double colon of a method named as a value. -/
def methodName (g : Grammar) : Parser Unit := do
  if ← ahead [openAngle] then
    let _ ← exactArguments g
  if ← accept? [.keyword "new"] then return
  else
    let _ ← g.expression

/-- An expression that assigns nothing. -/
def conditionalPhrase (g : Grammar) : Parser Expr := do
  let e ← operators g
  if ← accept? [question] then
    let yes ← g.expression
    accept colon
    return .conditional e yes (← g.conditional)
  else if ← ahead [arrow] then
    functionBody g
    return .code "LambdaExpression"
  else if ← accept? [doubleColon] then
    methodName g
    return .code "MethodReference"
  else return e

/-- An expression. -/
def expressionPhrase (g : Grammar) : Parser Expr := do
  let e ← conditionalPhrase g
  match ← next? (isSymbolIn assignmentOps) with
  | some (.symbol op) => return .assignment e op (← g.expression)
  | _ => return e

/-- A value in an annotation. -/
def elementValuePhrase (g : Grammar) : Parser ElementValue := do
  if annotationStarts (← get) then return .nested (← annotationPhrase g)
  else if ← accept? [openBrace] then
    if ← accept? [closeBrace] then return .array []
    else
      let first ← g.elementValue
      let more ← many
        (fun ts => ts.head? == some comma && (ts.drop 1).head? != some closeBrace)
        (do accept comma; g.elementValue)
      let _ ← accept? [comma]
      accept closeBrace
      return .array (first :: more)
  else return .expression (← conditionalPhrase g)

/-- What a variable starts with. -/
def initialPhrase (g : Grammar) : Parser Unit := do
  if ← ahead [openBrace] then arrayValues g
  else
    let _ ← expressionPhrase g

end EntityScaffold.Java.Grammar
