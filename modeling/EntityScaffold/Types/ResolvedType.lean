import EntityScaffold.Text.Cut

/-!
# Resolved types

A type as generated code uses it: what kind it is, its simple name and namespace, its type
arguments and its array rank. A resolved type knows how it is written, which imports its parts
need, and which class stands for it where no primitive may stand.
-/

namespace EntityScaffold

/-- What a type is to the code that handles it. -/
inductive ResolvedType.Kind
  | primitive
  | boxed
  | string
  | temporal
  | bigNumber
  | uuid
  | reference
  | collection
  deriving DecidableEq, Repr, Inhabited

/-- A type with its namespace, which may be empty. -/
structure ResolvedType where
  kind : ResolvedType.Kind
  /-- The simple name. -/
  name : String
  ns : String
  arguments : List ResolvedType
  /-- The number of array dimensions. -/
  rank : Nat
  deriving Inhabited

namespace ResolvedType

/-- The namespace whose types need no import. -/
def languageNamespace : String := "java.lang"

/-- The namespace of the collections. -/
def collectionNamespace : String := "java.util"

/-- A type without arguments and dimensions. -/
def plain (kind : Kind) (name ns : String) : ResolvedType := mk kind name ns [] 0

/-- A name in a namespace; the empty namespace adds nothing. -/
def qualify (ns name : String) : String := if ns = "" then name else ns ++ "." ++ name

def qualifiedName (t : ResolvedType) : String := qualify t.ns t.name

/-- The type is a primitive and no array. -/
def isPrimitive (t : ResolvedType) : Bool := t.kind = .primitive && t.rank = 0

/-- The type is the string and no array. -/
def isString (t : ResolvedType) : Bool := t.kind = .string && t.rank = 0

/-- Primitives, each with the class that stands for it. -/
def wrappers : List (String × String) :=
  [("int", "Integer"), ("long", "Long"), ("double", "Double"), ("float", "Float"),
   ("short", "Short"), ("byte", "Byte"), ("boolean", "Boolean"), ("char", "Character")]

/-- The type as a class: the class that stands for a primitive, if there is one, and any other type
itself. -/
def boxed? (t : ResolvedType) : Option ResolvedType :=
  if t.isPrimitive then
    (wrappers.lookup t.name).map fun wrapper => plain .boxed wrapper languageNamespace
  else some t

/-- The type as a class; a primitive without one stands for itself. -/
def boxed (t : ResolvedType) : ResolvedType := t.boxed?.getD t

/-- The boxed long integer. -/
def boxedLong : ResolvedType := plain .boxed "Long" languageNamespace

/-- The class that all classes extend. -/
def object : ResolvedType := plain .reference "Object" languageNamespace

mutual

/-- The type as it is written in code. -/
def render : ResolvedType → String
  | mk _ name _ args rank =>
    (if args.isEmpty then name else name ++ "<" ++ renderAll args ++ ">")
      ++ Text.replicate rank "[]"

/-- Types as they are written, with commas between them. -/
def renderAll : List ResolvedType → String
  | [] => ""
  | [t] => t.render
  | t :: ts => t.render ++ ", " ++ renderAll ts

end

/-- The type itself, without its arguments, has to be imported. -/
def needsImport (t : ResolvedType) : Bool :=
  t.ns != "" && t.ns != languageNamespace && t.kind != .primitive

mutual

/-- Qualified names of the type and the types inside it that have to be imported. -/
def imports : ResolvedType → List String
  | mk kind name ns args rank =>
    (if (mk kind name ns args rank).needsImport then [qualify ns name] else []) ++ importsAll args

/-- Qualified names for several types. -/
def importsAll : List ResolvedType → List String
  | [] => []
  | t :: ts => t.imports ++ importsAll ts

end

end ResolvedType

end EntityScaffold
