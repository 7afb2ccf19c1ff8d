import EntityScaffold.Entity.Marker
import EntityScaffold.Java.CompilationUnit
import EntityScaffold.Java.ElementText

/-!
# Names in a compilation unit

A simple name means, in this order: what an import names, a member type of a top-level type of the
unit, a declared type of the unit's package, or a declared type of a package imported on demand.
For annotations, a persistence namespace imported on demand counts as if it were declared. A name
without any such meaning stays as it is. In a dotted name only the first part may stand for an
import.
-/

namespace EntityScaffold

open Java

/-- A compilation unit with the names it brings into scope. -/
structure SourceUnit where
  file : Option String
  package : String
  /-- Simple names of imports and what they mean, the last import first. -/
  imported : List (String × String)
  /-- Packages imported on demand, in order. -/
  onDemand : List String
  types : List TypeDecl

namespace SourceUnit

/-- The qualified name of a top-level type. -/
def qualify (u : SourceUnit) (name : String) : String := ResolvedType.qualify u.package name

/-- The unit that a syntax tree is. -/
def ofSyntax (file : Option String) (tree : CompilationUnit) : SourceUnit where
  file := file
  package := ".".intercalate (tree.package.getD [])
  imported := (tree.imports.filterMap fun
    | .single path => some (path.getLast?.getD "", ".".intercalate path)
    | .onDemand _ => none).reverse
  onDemand := tree.imports.filterMap fun
    | .single _ => none
    | .onDemand package => some (".".intercalate package)
  types := tree.types

/-- Member types of a declared type. -/
def memberTypes (d : TypeDecl) : List (TypeKind × String) :=
  d.members.filterMap fun
    | .type kind name => some (kind, name)
    | _ => none

/-- Member types of the top-level types by their simple names. Of equal names the last counts, in
the place of the first. -/
def nested (u : SourceUnit) : List (String × String) :=
  u.types.foldl
    (fun out d =>
      (memberTypes d).foldl (fun out m => putPair out m.2 (u.qualify d.name ++ "." ++ m.2)) out)
    []

end SourceUnit

/-- A unit among the types that are declared anywhere in the scan. -/
structure Scope where
  unit : SourceUnit
  declared : List String

namespace Scope

/-- The type of a package imported on demand that a simple name means. -/
def onDemand? (s : Scope) (asMarker : Bool) (name : String) : Option String :=
  (s.unit.onDemand.find? fun package =>
      package ++ "." ++ name ∈ s.declared || (asMarker && package ∈ Marker.namespaces)).map
    (· ++ "." ++ name)

/-- The meaning of a simple name. -/
def qualifySimple (s : Scope) (asMarker : Bool) (name : String) : String :=
  match s.unit.imported.lookup name with
  | some meaning => meaning
  | none =>
    match s.unit.nested.lookup name with
    | some meaning => meaning
    | none =>
      if s.unit.qualify name ∈ s.declared then s.unit.qualify name
      else (s.onDemand? asMarker name).getD name

/-- The meaning of a dotted name. -/
def qualifyPath (s : Scope) (asMarker : Bool) : List String → String
  | [] => ""
  | [name] => s.qualifySimple asMarker name
  | first :: rest =>
    match s.unit.imported.lookup first with
    | some meaning => meaning ++ "." ++ ".".intercalate rest
    | none => ".".intercalate (first :: rest)

mutual

/-- The text of a type, with its class names qualified. -/
def typeText (s : Scope) : TypeRef → String
  | .basic name rank => name ++ Text.replicate rank "[]"
  | .named first more arguments rank =>
    s.qualifyPath false (first :: more)
      ++ (if arguments.isEmpty then "" else "<" ++ s.argumentTexts arguments ++ ">")
      ++ Text.replicate rank "[]"

/-- The text of a type argument. -/
def argumentText (s : Scope) : TypeArgument → String
  | .any => "?"
  | .exact t => s.typeText t
  | .upTo t => "? extends " ++ s.typeText t
  | .downTo t => "? super " ++ s.typeText t

/-- Texts of type arguments with commas between them. -/
def argumentTexts (s : Scope) : List TypeArgument → String
  | [] => ""
  | [a] => s.argumentText a
  | a :: as => s.argumentText a ++ ", " ++ s.argumentTexts as

end

theorem argumentTexts_eq_join (s : Scope) (as : List TypeArgument) :
    s.argumentTexts as = Text.join ", " (as.map s.argumentText) := by
  induction as with
  | nil => rfl
  | cons a as ih =>
    cases as with
    | nil => rfl
    | cons b as => exact congrArg (s.argumentText a ++ ", " ++ ·) ih

/-- The meaning of the name that a type starts with. -/
def qualifiedHead (s : Scope) : TypeRef → String
  | .basic name _ => s.qualifyPath false [name]
  | .named first more _ _ => s.qualifyPath false (first :: more)

/-- An annotation by its meaning. -/
def annotationUse (s : Scope) (a : Annotation) : AnnotationUse where
  name := s.qualifyPath true a.path
  values := a.element.texts

end Scope

end EntityScaffold
