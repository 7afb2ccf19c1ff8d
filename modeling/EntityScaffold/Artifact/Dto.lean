import EntityScaffold.Artifact.Identity
import EntityScaffold.Artifact.Listing
import EntityScaffold.Artifact.Projection

/-!
# Transfer objects

A class with the members of the entity's flat view. Its accessors are left to annotations, or else
written out.
-/

namespace EntityScaffold.Artifact

open Listing

/-- What the annotations of a transfer object import. -/
def accessorImports : List String :=
  ["lombok.AllArgsConstructor", "lombok.Builder", "lombok.Data", "lombok.NoArgsConstructor"]

/-- The annotations of a transfer object that has no accessors of its own. -/
def accessorMarkings : List String :=
  ["@Data", "@NoArgsConstructor", "@AllArgsConstructor", "@Builder"]

/-- The declaration of a member. -/
def memberDeclaration (f : FlatAttribute) : String :=
  "private " ++ f.type.render ++ " " ++ f.name ++ ";"

/-- The method that reads a member. -/
def getter (f : FlatAttribute) : List String :=
  braced ("public " ++ f.type.render ++ " get" ++ Naming.capitalize f.name ++ "()")
    ["return " ++ f.name ++ ";"]

/-- The method that writes a member. -/
def setter (f : FlatAttribute) : List String :=
  braced ("public void set" ++ Naming.capitalize f.name ++
      "(" ++ f.type.render ++ " " ++ f.name ++ ")")
    ["this." ++ f.name ++ " = " ++ f.name ++ ";"]

/-- The transfer object of an entity. -/
def dto (m : Entity) (p : Settings) : Listing :=
  let package := Layer.dto.package m p
  let fields := m.projection
  { package := package
    imports :=
      foreign package (fields.flatMap (·.type.imports)) ++
        (if p.accessorStyle then accessorImports else [])
    markings := if p.accessorStyle then accessorMarkings else []
    declaration := "public class " ++ Layer.dto.className m p
    members :=
      (if fields.isEmpty then [] else [fields.map memberDeclaration]) ++
        (if p.accessorStyle then [] else fields.flatMap fun f => [getter f, setter f]) }

end EntityScaffold.Artifact
