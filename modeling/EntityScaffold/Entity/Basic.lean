import EntityScaffold.Entity.Marker
import EntityScaffold.Types.Resolver

/-!
# Entities

What generated code needs to know of an entity: its name, its fields with their resolved types and
roles, and its identifier.
-/

namespace EntityScaffold

/-- How a field refers to other entities. -/
inductive Relationship
  | manyToOne
  | oneToOne
  | oneToMany
  | manyToMany
  deriving DecidableEq, Repr

namespace Relationship

/-- The marker of a relationship. -/
def marker : Relationship → Marker
  | manyToOne => .manyToOne
  | oneToOne => .oneToOne
  | oneToMany => .oneToMany
  | manyToMany => .manyToMany

def name (r : Relationship) : String := r.marker.simpleName

/-- The field refers to any number of entities. -/
def isPlural : Relationship → Bool
  | oneToMany | manyToMany => true
  | manyToOne | oneToOne => false

/-- Relationships in the order in which their markers are looked for. -/
def all : List Relationship := [manyToOne, oneToMany, manyToMany, oneToOne]

/-- The relationship that annotations mark. -/
def of? (uses : List AnnotationUse) : Option Relationship :=
  all.find? fun r => r.marker.isIn uses

end Relationship

/-- A field of an entity. -/
structure Attribute where
  name : String
  /-- The type as it is declared. -/
  typeText : String
  type : ResolvedType
  columnName : String
  isEnum : Bool := false
  isId : Bool := false
  isVersion : Bool := false
  isTransient : Bool := false
  relationship : Option Relationship := none
  collectionName : Option String := none
  elementType : Option ResolvedType := none
  deriving Inhabited

namespace Attribute

def isCollection (f : Attribute) : Bool := f.collectionName.isSome

/-- The field refers to any number of entities. -/
def isPlural (f : Attribute) : Bool := f.relationship.any (·.isPlural)

/-- The field refers to one entity. -/
def isReference (f : Attribute) : Bool := f.relationship.any fun r => !r.isPlural

end Attribute

/-- An entity. -/
structure Entity where
  className : String
  package : String
  tableName : String
  fields : List Attribute
  deriving Inhabited

namespace Entity

def qualifiedName (m : Entity) : String := ResolvedType.qualify m.package m.className

/-- The first field that is marked as the identifier. -/
def identifier? (m : Entity) : Option Attribute := m.fields.find? (·.isId)

/-- The type of the entity itself. -/
def selfType (m : Entity) : ResolvedType := .plain .reference m.className m.package

/-- The type of the identifier, as a class; without an identifier it is a long integer. -/
def identifierType (m : Entity) : ResolvedType :=
  match m.identifier? with
  | some f => f.type.boxed
  | none => .boxedLong

/-- The first field of a name. -/
def attributeNamed? (m : Entity) (name : String) : Option Attribute :=
  m.fields.find? (·.name == name)

end Entity

end EntityScaffold
