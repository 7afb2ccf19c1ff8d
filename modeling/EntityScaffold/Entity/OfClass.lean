import EntityScaffold.Entity.Basic
import EntityScaffold.Naming

/-!
# From classes to entities

A class is an entity if it is a class, can be instantiated and is marked. Its fields are those of
its whole hierarchy that belong to every object and may change; fields of one name all stay.
-/

namespace EntityScaffold

/-- The value called `name` of an annotation, without quotes, unless it is empty. -/
def AnnotationUse.givenName? (a : AnnotationUse) : Option String :=
  let name := Text.unquote ((a.values.lookup "name").getD "")
  if name = "" then none else some name

/-- The name that a marker gives, or else the lower case of another one. -/
def Marker.givenName (m : Marker) (uses : List AnnotationUse) (otherwise : String) : String :=
  ((m.find? uses).bind (·.givenName?)).getD (Text.toLower otherwise)

/-- The class can be an entity. -/
def SourceClass.isEntity (c : SourceClass) : Bool :=
  c.kind = .classType && !c.isAbstract && Marker.entity.isIn c.annotations

/-- The entity field that a field of a class is. -/
def Attribute.ofSource (table : TypeTable) (f : SourceField) : Attribute where
  name := f.name
  typeText := f.typeText
  type := table.resolve f.typeText
  columnName := Marker.column.givenName f.annotations f.name
  isEnum := f.isEnum
  isId := Marker.id.isIn f.annotations
  isVersion := Marker.version.isIn f.annotations
  isTransient := Marker.transient.isIn f.annotations || "transient" ∈ f.modifiers
  relationship := Relationship.of? f.annotations
  collectionName := collectionName? f.typeText
  elementType := table.elementType? f.typeText

/-- The entity that a class is taken for. -/
def Entity.describe (table : TypeTable) (c : SourceClass) : Entity where
  className := c.name
  package := c.package
  tableName := Marker.table.givenName c.annotations c.name
  fields := c.stateFields.map (Attribute.ofSource table)

/-- The entity that a class is, if it is one. -/
def Entity.ofClass? (table : TypeTable) (c : SourceClass) : Option Entity :=
  if c.isEntity then some (.describe table c) else none

end EntityScaffold
