import EntityScaffold.Source.Class

/-!
# Persistence markers

The annotations that tell entities, identifiers, columns and relationships. Each has the same
meaning in both namespaces that define it.
-/

namespace EntityScaffold

/-- An annotation of the persistence standard. -/
inductive Marker
  | entity
  | id
  | version
  | transient
  | column
  | table
  | manyToOne
  | oneToOne
  | oneToMany
  | manyToMany
  deriving DecidableEq, Repr

namespace Marker

/-- The namespaces that define the markers. -/
def namespaces : List String := ["javax.persistence", "jakarta.persistence"]

def simpleName : Marker → String
  | entity => "Entity"
  | id => "Id"
  | version => "Version"
  | transient => "Transient"
  | column => "Column"
  | table => "Table"
  | manyToOne => "ManyToOne"
  | oneToOne => "OneToOne"
  | oneToMany => "OneToMany"
  | manyToMany => "ManyToMany"

/-- The qualified names of a marker. -/
def names (m : Marker) : List String := namespaces.map fun ns => ns ++ "." ++ m.simpleName

/-- The first use of a marker. -/
def find? (m : Marker) (uses : List AnnotationUse) : Option AnnotationUse :=
  uses.find? fun a => a.name ∈ m.names

/-- The marker is used. -/
def isIn (m : Marker) (uses : List AnnotationUse) : Bool := (m.find? uses).isSome

end Marker

end EntityScaffold
