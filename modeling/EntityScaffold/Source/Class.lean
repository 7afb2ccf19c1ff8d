import EntityScaffold.Types.ResolvedType
import EntityScaffold.Java.Syntax

/-!
# Classes as they are declared

What a declared type says about itself: its annotations, fields, interfaces, the arities of its
constructors and the class it extends. All names are qualified as far as their meaning is known.
-/

namespace EntityScaffold

/-- An annotation by its qualified name, with its named values. -/
structure AnnotationUse where
  name : String
  values : List (String × String) := []
  deriving DecidableEq, Repr, Inhabited

/-- The last part of the name. -/
def AnnotationUse.simpleName (a : AnnotationUse) : String :=
  match Text.cutLast '.' a.name.toList with
  | some (_, simple) => .ofList simple
  | none => a.name

/-- A field with the text of its type. -/
structure SourceField where
  name : String
  typeText : String
  modifiers : List String := []
  annotations : List AnnotationUse := []
  /-- The type is a known enum. -/
  isEnum : Bool := false
  deriving DecidableEq, Repr, Inhabited

namespace SourceField

def isStatic (f : SourceField) : Bool := "static" ∈ f.modifiers

def isFinal (f : SourceField) : Bool := "final" ∈ f.modifiers

/-- A field that belongs to every object and may change. -/
def isState (f : SourceField) : Bool := !f.isStatic && !f.isFinal

end SourceField

/-- A declared type. -/
structure SourceClass where
  name : String
  package : String := ""
  kind : Java.TypeKind := .classType
  modifiers : List String := []
  annotations : List AnnotationUse := []
  fields : List SourceField := []
  interfaces : List String := []
  arities : List Nat := []
  superclass : Option SourceClass := none
  /-- The file that declares the type, if it is known. -/
  file : Option String := none
  deriving Inhabited

namespace SourceClass

def qualifiedName (c : SourceClass) : String := ResolvedType.qualify c.package c.name

def isAbstract (c : SourceClass) : Bool := "abstract" ∈ c.modifiers

/-- The classes above, nearest first, as far as the links go. -/
def chain : SourceClass → List SourceClass
  | ⟨_, _, _, _, _, _, _, _, none, _⟩ => []
  | ⟨_, _, _, _, _, _, _, _, some s, _⟩ => s :: s.chain

/-- Classes up to the first one whose qualified name came before. -/
def untilRepeated (seen : List String) : List SourceClass → List SourceClass
  | [] => []
  | c :: cs =>
    if c.qualifiedName ∈ seen then [] else c :: untilRepeated (c.qualifiedName :: seen) cs

/-- The classes above, nearest first, up to the first repeated name. -/
def ancestors (c : SourceClass) : List SourceClass := untilRepeated [c.qualifiedName] c.chain

/-- The class and the classes above it. -/
def hierarchy (c : SourceClass) : List SourceClass := c :: c.ancestors

/-- Fields of the class and then of the classes above it. -/
def allFields (c : SourceClass) : List SourceField := c.hierarchy.flatMap (·.fields)

/-- Fields of the hierarchy that belong to every object and may change. -/
def stateFields (c : SourceClass) : List SourceField := c.allFields.filter (·.isState)

end SourceClass

end EntityScaffold
