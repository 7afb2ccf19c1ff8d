import EntityScaffold.Entity.OfClass

/-!
# Validation

A class is checked before it is taken for an entity, and the entity after. Every problem is
collected: errors stop a run, warnings may be confirmed.
-/

namespace EntityScaffold

/-- Something that is wrong with a class or an entity. -/
inductive Defect
  | notMarked (className : String)
  | abstractClass (className : String)
  | noDefaultConstructor (className : String)
  | noMarkedId (className : String)
  | notACollection (field : String) (relationship : Relationship) (typeText : String)
  | noIdField (className : String)
  | relationshipWithoutCollection (field : String) (relationship : Relationship)
  deriving DecidableEq, Repr

/-- Something that may be wrong. -/
inductive Concern
  | notSerializable (className : String)
  | noElementType (field : String)
  deriving DecidableEq, Repr

/-- The words for a defect. -/
def Defect.message : Defect → String
  | notMarked c => "Class " ++ c ++ " is not annotated with @Entity"
  | abstractClass c => "Class " ++ c ++ " is abstract and cannot be instantiated"
  | noDefaultConstructor c => "Class " ++ c ++ " has no no-argument constructor"
  | noMarkedId c => "Class " ++ c ++ " has no field annotated with @Id"
  | notACollection f r t =>
    "Field " ++ f ++ " is annotated with @" ++ r.name ++ " but its type " ++ t ++
      " is not a collection"
  | noIdField c => "Entity " ++ c ++ " has no identifier field"
  | relationshipWithoutCollection f r =>
    "Field " ++ f ++ " has relationship " ++ r.name ++ " but is not a collection"

/-- The words for a concern. -/
def Concern.message : Concern → String
  | notSerializable c => "Class " ++ c ++ " does not implement java.io.Serializable"
  | noElementType f => "Collection field " ++ f ++ " has no generic element type"

/-- What a check found. -/
structure Findings where
  defects : List Defect
  concerns : List Concern
  deriving DecidableEq, Repr, Inhabited

namespace Findings

def isValid (f : Findings) : Bool := f.defects.isEmpty

def hasConcerns (f : Findings) : Bool := !f.concerns.isEmpty

def errors (f : Findings) : List String := f.defects.map (·.message)

def warnings (f : Findings) : List String := f.concerns.map (·.message)

/-- The findings of two checks, one after the other. -/
instance : Append Findings := ⟨fun f g => ⟨f.defects ++ g.defects, f.concerns ++ g.concerns⟩⟩

end Findings

/-- The interface of objects that can be written out. -/
def serializable : String := "java.io.Serializable"

/-- The defect, if it is there. -/
def defectIf (present : Bool) (d : Defect) : List Defect := if present then [d] else []

/-- A field that refers to any number of entities must be a collection. -/
def SourceField.defects (f : SourceField) : List Defect :=
  match Relationship.of? f.annotations with
  | some r => defectIf (r.isPlural && (collectionName? f.typeText).isNone)
      (.notACollection f.name r f.typeText)
  | none => []

/-- Checks a class. -/
def SourceClass.check (c : SourceClass) : Findings where
  defects :=
    defectIf (!Marker.entity.isIn c.annotations) (.notMarked c.name) ++
    defectIf c.isAbstract (.abstractClass c.name) ++
    defectIf (!c.arities.isEmpty && 0 ∉ c.arities) (.noDefaultConstructor c.name) ++
    defectIf (!c.stateFields.any fun f => Marker.id.isIn f.annotations) (.noMarkedId c.name) ++
    c.stateFields.flatMap (·.defects)
  concerns :=
    if c.hierarchy.any fun d => serializable ∈ d.interfaces then [] else [.notSerializable c.name]

/-- A field that refers to any number of entities must be a collection. -/
def Attribute.defects (f : Attribute) : List Defect :=
  match f.relationship with
  | some r => defectIf (r.isPlural && !f.isCollection) (.relationshipWithoutCollection f.name r)
  | none => []

/-- The elements of a collection should have a type. -/
def Attribute.concerns (f : Attribute) : List Concern :=
  if f.isCollection && f.elementType.isNone then [.noElementType f.name] else []

/-- Checks an entity. -/
def Entity.check (m : Entity) : Findings where
  defects := defectIf m.identifier?.isNone (.noIdField m.className) ++ m.fields.flatMap (·.defects)
  concerns := m.fields.flatMap (·.concerns)

end EntityScaffold
