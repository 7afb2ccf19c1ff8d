import EntityScaffold.Artifact.Identity
import EntityScaffold.Artifact.Listing

/-!
# Services

A class that finds, saves and deletes entities through the repository.
-/

namespace EntityScaffold.Artifact

open Listing

/-- The service of an entity. -/
def service (m : Entity) (p : Settings) : Listing :=
  let package := Layer.service.package m p
  let name := Layer.service.className m p
  let entity := m.className
  let repo := Layer.repository.className m p
  let var := Naming.decapitalize repo
  let id := m.identifierType.render
  { package := package
    imports :=
      foreign package
          (m.qualifiedName :: Layer.repository.qualifiedName m p :: m.identifierType.imports) ++
        ["java.util.List", "java.util.Optional", "org.springframework.stereotype.Service"]
    markings := ["@Service"]
    declaration := "public class " ++ name
    members :=
      [["private final " ++ repo ++ " " ++ var ++ ";"],
       braced ("public " ++ name ++ "(" ++ repo ++ " " ++ var ++ ")")
         ["this." ++ var ++ " = " ++ var ++ ";"],
       braced ("public List<" ++ entity ++ "> findAll()")
         ["return " ++ var ++ ".findAll();"],
       braced ("public Optional<" ++ entity ++ "> findById(" ++ id ++ " id)")
         ["return " ++ var ++ ".findById(id);"],
       braced ("public " ++ entity ++ " save(" ++ entity ++ " entity)")
         ["return " ++ var ++ ".save(entity);"],
       braced ("public void deleteById(" ++ id ++ " id)")
         [var ++ ".deleteById(id);"]] }

end EntityScaffold.Artifact
