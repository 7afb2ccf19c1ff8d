import EntityScaffold.Artifact.Identity
import EntityScaffold.Artifact.Listing
import EntityScaffold.Artifact.Projection

/-!
# Mappers

An interface that converts between entities and transfer objects. A reference to another entity is
read as that entity's identifier, and is left out on the way back.
-/

namespace EntityScaffold.Artifact

open Listing

/-- Members of the flat view that stand for a reference to one entity. -/
def references (m : Entity) : List FlatAttribute :=
  m.projection.filter (·.origin.isReference)

/-- Where the identifier of a referred entity is read. -/
def sourceLine (f : FlatAttribute) : String :=
  "@Mapping(target = \"" ++ f.name ++ "\", source = \"" ++ f.origin.name ++ ".id\")"

/-- A reference that stays empty. -/
def ignoredLine (f : FlatAttribute) : String :=
  "@Mapping(target = \"" ++ f.origin.name ++ "\", ignore = true)"

/-- The mapper of an entity. -/
def mapper (m : Entity) (p : Settings) : Listing :=
  let package := Layer.mapper.package m p
  let dto := Layer.dto.className m p
  let entity := m.className
  let refs := references m
  { package := package
    imports :=
      foreign package [m.qualifiedName, Layer.dto.qualifiedName m p] ++
        ["java.util.List", "org.mapstruct.Mapper"] ++
        (if refs.isEmpty then [] else ["org.mapstruct.Mapping"])
    markings := ["@Mapper(componentModel = \"spring\")"]
    declaration := "public interface " ++ Layer.mapper.className m p
    members :=
      [refs.map sourceLine ++ [dto ++ " toDto(" ++ entity ++ " entity);"],
       refs.map ignoredLine ++ [entity ++ " toEntity(" ++ dto ++ " dto);"],
       ["List<" ++ dto ++ "> toDtoList(List<" ++ entity ++ "> entities);"],
       ["List<" ++ entity ++ "> toEntityList(List<" ++ dto ++ "> dtos);"]] }

end EntityScaffold.Artifact
