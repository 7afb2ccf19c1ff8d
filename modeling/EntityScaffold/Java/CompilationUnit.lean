import EntityScaffold.Java.Grammar.Statement
import EntityScaffold.Java.Lexer

/-!
# Compilation units

A text is cut into tokens and read as a package, imports and declared types. The grammar is as
deep as there are tokens, because a phrase inside a phrase starts at least one token later.
-/

namespace EntityScaffold.Java

open Java.Parser Java.Token

namespace Grammar

/-- The grammar one level deeper. -/
def deepen (g : Grammar) : Grammar where
  reference := referenceType g
  elementValue := elementValuePhrase g
  expression := expressionPhrase g
  conditional := conditionalPhrase g
  operand := operandPhrase g
  initial := initialPhrase g
  statement := statementPhrase g
  blockItem := blockItemPhrase g
  classMember := classMemberPhrase g
  interfaceMember := interfaceMemberPhrase g
  annotationMember := annotationMemberPhrase g

/-- The grammar of phrases that are nested at most so deep. -/
def ofDepth : Nat → Grammar
  | 0 => .empty
  | n + 1 => (ofDepth n).deepen

/-- The package, with annotations that are dropped. Without a package nothing is taken. -/
def packageName? (g : Grammar) : Parser (Option (List String)) := do
  let start ← get
  let _ ← annotations g
  if ← accept? [.keyword "package"] then
    let path ← dottedName
    accept semicolon
    return some path
  else
    set start
    return none

/-- Names of an import so far, at most so many tokens before its end. Gives the names and whether
a star follows them. -/
def importPath : Nat → Parser (List String × Bool)
  | 0 => unexpected
  | n + 1 => do
    let s ← name
    if ← accept? [dot] then
      if ← accept? [.symbol "*"] then
        accept semicolon
        return ([s], true)
      else
        let (more, star) ← importPath n
        return (s :: more, star)
    else
      accept semicolon
      return ([s], false)

/-- An import; a static one is dropped. -/
def importDecl : Parser (Option Import) := do
  accept (.keyword "import")
  let static ← accept? [.keyword "static"]
  let (path, star) ← importPath ((← get).length + 1)
  if static then return none
  else if star then return some (.onDemand path)
  else return some (.single path)

/-- The package and the imports. -/
def header (g : Grammar) : Parser (Option (List String) × List Import) := do
  let package ← packageName? g
  let found ← many (fun ts => ts.head? == some (.keyword "import")) importDecl
  return (package, found.filterMap id)

/-- A declared type, or a stray semicolon. -/
def topLevel (g : Grammar) : Parser (Option TypeDecl) := do
  if ← accept? [semicolon] then return none else return some (← typeDecl g)

/-- Declared types up to the end. -/
def topLevels (g : Grammar) : Parser (List TypeDecl) := do
  let found ← many (fun ts => !ts.isEmpty) (topLevel g)
  return found.filterMap id

end Grammar

/-- Where a text ends so early that it is no compilation unit yet. -/
inductive Truncation
  /-- Inside the package or an import. -/
  | inHeader
  /-- Right after an operand. -/
  | afterOperand
  deriving DecidableEq, Repr

/-- Why a text is no compilation unit. -/
inductive SyntaxFault
  | lexical (fault : Lexer.Fault)
  | grammatical
  | truncated (place : Truncation)
  deriving DecidableEq, Repr

/-- Reads tokens as a compilation unit. -/
def CompilationUnit.ofTokens (ts : List Token) : Except SyntaxFault CompilationUnit :=
  let g := Grammar.ofDepth (ts.length + 1)
  match g.header ts with
  | .error .endOfInput => .error (.truncated .inHeader)
  | .error .endAfterOperand => .error (.truncated .afterOperand)
  | .error .unexpected => .error .grammatical
  | .ok ((package, imports), rest) =>
    match g.topLevels rest with
    | .error .endAfterOperand => .error (.truncated .afterOperand)
    | .error _ => .error .grammatical
    | .ok (types, _) => .ok ⟨package, imports, types⟩

/-- Reads a text as a compilation unit. -/
def CompilationUnit.read (text : String) : Except SyntaxFault CompilationUnit :=
  match Lexer.tokens text with
  | .error fault => .error (.lexical fault)
  | .ok ts => CompilationUnit.ofTokens ts

end EntityScaffold.Java
