import EntityScaffold.Java.Grammar

/-!
# Types, annotations and parameters

A type argument is no basic type unless it is an array. Annotations stand before declarations and
parameters, not inside types.
-/

namespace EntityScaffold.Java.Grammar

open Java.Parser Java.Token

/-- A basic type without brackets. -/
def basicType : Parser String := do
  match ← next with
  | .keyword s => if s ∈ basicTypes then return s else unexpected
  | _ => unexpected

/-- A class name with brackets, or a basic type with at least one pair of them. -/
def elementType (g : Grammar) : Parser TypeRef := do
  if ← nextIs isBasicType then
    let s ← basicType
    acceptAll [openBracket, closeBracket]
    return .basic s (1 + (← rank))
  else
    let t ← g.reference
    return t.addRank (← rank)

/-- A type argument. -/
def typeArgument (g : Grammar) : Parser TypeArgument := do
  if ← accept? [question] then
    if ← accept? [.keyword "extends"] then return .upTo (← elementType g)
    else if ← accept? [.keyword "super"] then return .downTo (← elementType g)
    else return .any
  else return .exact (← elementType g)

/-- Type arguments in angle brackets. -/
def typeArguments (g : Grammar) : Parser (List TypeArgument) := do
  accept openAngle
  let arguments ← sepBy comma (typeArgument g)
  accept closeAngle
  return arguments

/-- Types with commas between them. -/
def typeList (g : Grammar) : Parser (List TypeRef) := sepBy comma (elementType g)

/-- Types in angle brackets, none of them a wildcard. -/
def exactArguments (g : Grammar) : Parser (List TypeRef) := do
  accept openAngle
  let types ← typeList g
  accept closeAngle
  return types

/-- One name of a dotted class name, with the type arguments after it. -/
def namePart (arguments : Parser (List TypeArgument)) : Parser (String × List TypeArgument) := do
  let s ← name
  if ← ahead [openAngle] then return (s, ← arguments) else return (s, [])

/-- A dotted class name; of the type arguments the last ones count. -/
def dottedType (arguments : Parser (List TypeArgument)) : Parser TypeRef := do
  let first ← namePart arguments
  let more ← many (fun ts => ts.head? == some dot) (do accept dot; namePart arguments)
  let written := (first :: more).filterMap fun p => if p.2.isEmpty then none else some p.2
  return .named first.1 (more.map (·.1)) (written.getLast?.getD []) 0

/-- A class name with type arguments, without brackets. -/
def referenceType (g : Grammar) : Parser TypeRef := dottedType (typeArguments g)

/-- A type. -/
def type (g : Grammar) : Parser TypeRef := do
  if ← nextIs isBasicType then
    let s ← basicType
    return .basic s (← rank)
  else if ← nextIs isIdentifier then
    let t ← referenceType g
    return t.addRank (← rank)
  else unexpected

/-- A type parameter and its bounds. -/
def typeParameter (g : Grammar) : Parser Unit := do
  let _ ← name
  if ← accept? [.keyword "extends"] then
    let _ ← sepBy (.symbol "&") (referenceType g)

/-- Type parameters in angle brackets. -/
def typeParameters (g : Grammar) : Parser Unit := do
  accept openAngle
  let _ ← sepBy comma (typeParameter g)
  accept closeAngle

/-- Type parameters, if there are any. -/
def typeParameters? (g : Grammar) : Parser Unit := do
  if ← ahead [openAngle] then typeParameters g

/-- An annotation starts here, and not the declaration of an annotation type. -/
def annotationStarts : List Token → Bool
  | .symbol "@" :: rest => rest.head? != some (.keyword "interface")
  | _ => false

/-- The declaration of an annotation type starts here. -/
def annotationTypeStarts : List Token → Bool
  | .symbol "@" :: rest => rest.head? == some (.keyword "interface")
  | _ => false

/-- One named value of an annotation. -/
def elementPair (g : Grammar) : Parser (String × ElementValue) := do
  let s ← name
  accept equals
  return (s, ← g.elementValue)

/-- What stands in the parentheses of an annotation, which are not empty. -/
def element (g : Grammar) : Parser Element := do
  if ← nameThen equals then return .pairs (← sepBy comma (elementPair g))
  else return .value (← g.elementValue)

/-- An annotation. -/
def annotationPhrase (g : Grammar) : Parser Annotation := do
  accept atSign
  let path ← dottedName
  if ← accept? [openParen] then
    if ← accept? [closeParen] then return .mk path .none
    else
      let e ← element g
      accept closeParen
      return .mk path e
  else return .mk path .none

/-- Annotations, as many as there are. -/
def annotations (g : Grammar) : Parser (List Annotation) :=
  many annotationStarts (annotationPhrase g)

/-- A modifier or an annotation starts here. -/
def modifierStarts (ts : List Token) : Bool := ts.head?.any isModifier || annotationStarts ts

/-- A modifier or an annotation. -/
def modifier (g : Grammar) : Parser (String ⊕ Annotation) := do
  if annotationStarts (← get) then return .inr (← annotationPhrase g)
  else
    match ← next with
    | .keyword s => if s ∈ Token.modifiers then return .inl s else unexpected
    | _ => unexpected

/-- Modifiers and annotations, as many as there are; a modifier may repeat. -/
def modifiers (g : Grammar) : Parser Modifiers := do
  let found ← many modifierStarts (modifier g)
  let words := found.filterMap fun | .inl s => some s | .inr _ => none
  let annotations := found.filterMap fun | .inl _ => none | .inr a => some a
  return ⟨words.eraseDups, annotations⟩

/-- A variable may be final and annotated. -/
def variableModifiers (g : Grammar) : Parser Unit := do
  let _ ← many
    (fun ts => ts.head? == some (.keyword "final") || annotationStarts ts) (modifier g)

/-- A parameter. One that takes any number of values is the last. -/
def parameter (g : Grammar) : Parser Unit := do
  variableModifiers g
  let _ ← type g
  let variadic ← accept? [.symbol "..."]
  let _ ← name
  let _ ← rank
  if variadic then
    if ← ahead [comma] then unexpected

/-- Parameters in parentheses, counted. -/
def parameters (g : Grammar) : Parser Nat := do
  accept openParen
  if ← accept? [closeParen] then return 0
  else
    let found ← sepBy comma (parameter g)
    accept closeParen
    return found.length

end EntityScaffold.Java.Grammar
