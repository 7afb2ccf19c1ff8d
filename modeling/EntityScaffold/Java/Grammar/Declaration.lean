import EntityScaffold.Java.Grammar.Expression

/-!
# Declarations

Types and their members. A field statement declares one or more names, each with brackets of its
own; a constant of an interface or an annotation type must have a value.
-/

namespace EntityScaffold.Java.Grammar

open Java.Parser Java.Token

/-- Brackets after a name and the value after them, if there is one. -/
def declaratorTail (g : Grammar) : Parser Nat := do
  let n ← rank
  if ← accept? [equals] then g.initial
  return n

/-- A name, brackets after it, and a value if there is one. -/
def declarator (g : Grammar) : Parser (String × Nat) := do
  let s ← name
  return (s, ← declaratorTail g)

/-- More names after a first one. -/
def moreDeclarators (g : Grammar) : Parser (List (String × Nat)) :=
  many (fun ts => ts.head? == some comma) (do accept comma; declarator g)

/-- Brackets after the name of a constant, and its value. -/
def constantTail (g : Grammar) : Parser Unit := do
  let _ ← rank
  accept equals
  g.initial

/-- More constants after a first one. -/
def moreConstants (g : Grammar) : Parser Unit := do
  let _ ← many (fun ts => ts.head? == some comma)
    (do accept comma; let _ ← name; constantTail g)

/-- Exceptions that a method throws, if it names any. -/
def throws : Parser Unit := do
  if ← accept? [.keyword "throws"] then
    let _ ← sepBy comma dottedName

/-- What follows the name of a method, and its body or a semicolon. -/
def methodTail (g : Grammar) : Parser Unit := do
  let _ ← parameters g
  let _ ← rank
  throws
  if ← ahead [openBrace] then block g else accept semicolon

/-- As `methodTail`, where nothing is returned, so that no brackets may follow the parameters. -/
def voidMethodTail (g : Grammar) : Parser Unit := do
  let _ ← parameters g
  throws
  if ← ahead [openBrace] then block g else accept semicolon

/-- What follows the name of a constructor. -/
def constructorTail (g : Grammar) : Parser Member := do
  let arity ← parameters g
  throws
  block g
  return .constructor arity

/-- Superclass of a class, if it names one. -/
def superclass? (g : Grammar) : Parser (Option TypeRef) := do
  if ← accept? [.keyword "extends"] then return some (← type g) else return none

/-- Types after a word, if it is there. -/
def typesAfter (word : String) (g : Grammar) : Parser (List TypeRef) := do
  if ← accept? [.keyword word] then typeList g else return []

/-- A class after its modifiers. -/
def classDecl (g : Grammar) (modifiers : Modifiers) : Parser TypeDecl := do
  accept (.keyword "class")
  let s ← name
  typeParameters? g
  let superclass ← superclass? g
  let interfaces ← typesAfter "implements" g
  let members ← classBody g
  return ⟨.classType, s, modifiers, superclass, interfaces, members⟩

/-- A constant of an enum, with arguments and a body if it has them. -/
def enumConstant (g : Grammar) : Parser Unit := do
  let _ ← annotations g
  let _ ← name
  if ← ahead [openParen] then
    let _ ← arguments g
  if ← ahead [openBrace] then
    let _ ← classBody g

/-- Constants of an enum have come to an end. -/
def constantsEnd (ts : List Token) : Bool :=
  ts.head? == some semicolon || ts.head? == some closeBrace

/-- Constants of an enum. One comma may follow the last one, or stand alone. -/
def enumConstants (g : Grammar) : Parser Unit := do
  if ← accept? [comma] then return
  else if constantsEnd (← get) then return
  else
    enumConstant g
    let _ ← many (fun ts => ts.head? == some comma && !constantsEnd (ts.drop 1))
      (do accept comma; enumConstant g)
    let _ ← accept? [comma]

/-- The body of an enum. Its member types are not named from outside, so none are kept. -/
def enumBody (g : Grammar) : Parser Unit := do
  accept openBrace
  enumConstants g
  if ← accept? [semicolon] then
    let _ ← manyUntil closeBrace g.classMember
  accept closeBrace

/-- An enum after its modifiers. -/
def enumDecl (g : Grammar) (modifiers : Modifiers) : Parser TypeDecl := do
  accept (.keyword "enum")
  let s ← name
  let interfaces ← typesAfter "implements" g
  enumBody g
  return ⟨.enumType, s, modifiers, none, interfaces, []⟩

/-- An interface after its modifiers. -/
def interfaceDecl (g : Grammar) (modifiers : Modifiers) : Parser TypeDecl := do
  accept (.keyword "interface")
  let s ← name
  typeParameters? g
  let interfaces ← typesAfter "extends" g
  accept openBrace
  let found ← manyUntil closeBrace g.interfaceMember
  accept closeBrace
  return ⟨.interfaceType, s, modifiers, none, interfaces, found.filterMap id⟩

/-- An annotation type after its modifiers. -/
def annotationDecl (g : Grammar) (modifiers : Modifiers) : Parser TypeDecl := do
  acceptAll [atSign, .keyword "interface"]
  let s ← name
  accept openBrace
  let found ← manyUntil closeBrace g.annotationMember
  accept closeBrace
  return ⟨.annotationType, s, modifiers, none, [], found.filterMap id⟩

/-- The declared type that starts here, after its modifiers, if one does. -/
def typeDecl? (g : Grammar) (modifiers : Modifiers) : Parser (Option TypeDecl) := do
  match (← get).head? with
  | some (.keyword "class") => return some (← classDecl g modifiers)
  | some (.keyword "enum") => return some (← enumDecl g modifiers)
  | some (.keyword "interface") => return some (← interfaceDecl g modifiers)
  | _ => if annotationTypeStarts (← get) then return some (← annotationDecl g modifiers)
         else return none

/-- A declared type with its modifiers. -/
def typeDecl (g : Grammar) : Parser TypeDecl := do
  let found ← modifiers g
  match ← typeDecl? g found with
  | some d => return d
  | none => unexpected

/-- The declared type as a member of another one. -/
def memberType (d : TypeDecl) : Member := .type d.kind d.name

/-- A constructor or a method after its type parameters. -/
def genericMember (g : Grammar) : Parser Member := do
  typeParameters g
  if ← nameThen openParen then
    let _ ← name
    constructorTail g
  else if ← accept? [.keyword "void"] then
    let _ ← name
    voidMethodTail g
    return .other
  else
    let _ ← type g
    let _ ← name
    methodTail g
    return .other

/-- A member of a class after its modifiers. -/
def classMemberAfter (g : Grammar) (found : Modifiers) : Parser Member := do
  match ← typeDecl? g found with
  | some d => return memberType d
  | none =>
    if ← accept? [.keyword "void"] then
      let _ ← name
      voidMethodTail g
      return .other
    else if ← ahead [openAngle] then genericMember g
    else if ← nameThen openParen then
      let _ ← name
      constructorTail g
    else
      -- a method and a field start alike
      let t ← type g
      let s ← name
      if ← ahead [openParen] then
        methodTail g
        return .other
      else
        let n ← declaratorTail g
        let more ← moreDeclarators g
        accept semicolon
        return .fields ⟨found, t, (s, n) :: more⟩

/-- A member of a class; a stray semicolon is none. -/
def classMemberPhrase (g : Grammar) : Parser (Option Member) := do
  if ← accept? [semicolon] then return none
  else if ← ahead [.keyword "static", openBrace] then
    accept (.keyword "static")
    block g
    return some .other
  else if ← ahead [openBrace] then
    block g
    return some .other
  else
    let found ← modifiers g
    return some (← classMemberAfter g found)

/-- A method of an interface after its type parameters. -/
def genericInterfaceMember (g : Grammar) : Parser Unit := do
  typeParameters g
  if ← accept? [.keyword "void"] then pure ()
  else
    let _ ← type g
  let _ ← name
  methodTail g

/-- A member of an interface; a stray semicolon is none. -/
def interfaceMemberPhrase (g : Grammar) : Parser (Option Member) := do
  if ← accept? [semicolon] then return none
  else
    let found ← modifiers g
    match ← typeDecl? g found with
    | some d => return some (memberType d)
    | none =>
      if ← ahead [openAngle] then genericInterfaceMember g
      else if ← accept? [.keyword "void"] then
        let _ ← name
        voidMethodTail g
      else
        let _ ← type g
        let _ ← name
        if ← ahead [openParen] then methodTail g
        else
          constantTail g
          moreConstants g
          accept semicolon
      return some .other

/-- A member of an annotation type. -/
def annotationMemberPhrase (g : Grammar) : Parser (Option Member) := do
  let found ← modifiers g
  match ← typeDecl? g found with
  | some d => return some (memberType d)
  | none =>
    let _ ← type g
    let _ ← name
    if ← accept? [openParen] then
      accept closeParen
      let _ ← rank
      if ← accept? [.keyword "default"] then
        let _ ← g.elementValue
    else
      constantTail g
      moreConstants g
    accept semicolon
    return some .other

end EntityScaffold.Java.Grammar
