import EntityScaffold.Artifact.Identity
import EntityScaffold.Artifact.Listing
import EntityScaffold.Artifact.Projection

/-!
# Repositories

An interface that stores entities by their identifiers. It may have a query for each simple field,
and a second one for parts of a string.
-/

namespace EntityScaffold.Artifact

/-- The query for a value of a field. -/
def findBy (entity : String) (f : Attribute) : List String :=
  ["List<" ++ entity ++ "> findBy" ++ Naming.capitalize f.name ++
    "(" ++ f.type.render ++ " " ++ f.name ++ ");"]

/-- The query for a part of a string. -/
def findContaining (entity : String) (f : Attribute) : List String :=
  ["List<" ++ entity ++ "> findBy" ++ Naming.capitalize f.name ++
    "ContainingIgnoreCase(String " ++ f.name ++ ");"]

/-- The queries for a field. -/
def queries (entity : String) (f : Attribute) : List (List String) :=
  findBy entity f :: if f.type.isString then [findContaining entity f] else []

/-- The fields that a repository gets queries for. -/
def queryAttributes (m : Entity) (p : Settings) : List Attribute :=
  if p.queryMethods then m.queried else []

/-- The repository of an entity. -/
def repository (m : Entity) (p : Settings) : Listing :=
  let package := Layer.repository.package m p
  let fields := queryAttributes m p
  { package := package
    imports :=
      Listing.foreign package
          (m.qualifiedName :: m.identifierType.imports ++ fields.flatMap (·.type.imports)) ++
        ["org.springframework.data.jpa.repository.JpaRepository",
         "org.springframework.stereotype.Repository"] ++
        (if fields.isEmpty then [] else ["java.util.List"])
    markings := ["@Repository"]
    declaration :=
      "public interface " ++ Layer.repository.className m p ++
        " extends JpaRepository<" ++ m.className ++ ", " ++ m.identifierType.render ++ ">"
    members := fields.flatMap (queries m.className) }

end EntityScaffold.Artifact
