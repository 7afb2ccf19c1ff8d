import EntityScaffold.Artifact.Identity
import EntityScaffold.Artifact.Listing
import EntityScaffold.Text.Braces

/-!
# Controllers

A class that answers requests through the service. With transfer objects it converts on the way in
and out: through the mapper, or where there is none through methods of its own that are yet to be
written. The name of the variable that holds the mapper is read as a text in front of a field, so
single braces in it are a fault.
-/

namespace EntityScaffold.Artifact

open Listing

/-- How a controller converts between entities and transfer objects. -/
inductive Conversion
  /-- Entities are passed as they are. -/
  | identity
  /-- Methods of the controller itself. -/
  | own
  /-- A mapper, by the text in front of its methods. -/
  | mapper (var : String)
  deriving DecidableEq, Repr

namespace Conversion

/-- The call of a conversion on an argument. -/
def call (c : Conversion) (function argument : String) : String :=
  match c with
  | identity => argument
  | own => function ++ "(" ++ argument ++ ")"
  | mapper var => var ++ "." ++ function ++ "(" ++ argument ++ ")"

def toDto (c : Conversion) : String → String := c.call "toDto"

def toEntity (c : Conversion) : String → String := c.call "toEntity"

def toDtoList (c : Conversion) : String → String := c.call "toDtoList"

/-- The conversion that the settings ask for. -/
def ofSettings (m : Entity) (p : Settings) : Except Text.Braces.Fault Conversion :=
  if !p.enabled .dto then .ok identity
  else if Layer.mapper.isEnabled p then
    (Text.Braces.literal (Naming.decapitalize (Layer.mapper.className m p))).map mapper
  else .ok own

end Conversion

/-- The path under which a controller answers. -/
def route (m : Entity) (p : Settings) : String :=
  let given := Text.stripEndOf (· == '/') (Text.strip p.apiPrefix)
  let base := if given != "" && !Text.startsWith given "/" then "/" ++ given else given
  base ++ "/" ++ Naming.route m.className

/-- What every controller imports. -/
def controllerImports : List String :=
  ["java.util.List",
   "org.springframework.http.HttpStatus",
   "org.springframework.http.ResponseEntity",
   "org.springframework.web.bind.annotation.DeleteMapping",
   "org.springframework.web.bind.annotation.GetMapping",
   "org.springframework.web.bind.annotation.PathVariable",
   "org.springframework.web.bind.annotation.PostMapping",
   "org.springframework.web.bind.annotation.PutMapping",
   "org.springframework.web.bind.annotation.RequestBody",
   "org.springframework.web.bind.annotation.RequestMapping",
   "org.springframework.web.bind.annotation.RestController"]

/-- Types that a controller holds an object of, each with its variable. -/
def collaborators (m : Entity) (p : Settings) : List (String × String) :=
  let layers : List Layer :=
    if Layer.mapper.isEnabled p then [.service, .mapper] else [.service]
  layers.map fun k => (k.className m p, Naming.decapitalize (k.className m p))

/-- Artifacts that a controller refers to. -/
def controllerSiblings (p : Settings) : List Layer :=
  .service :: ((if p.enabled .dto then [.dto] else []) ++
    (if Layer.mapper.isEnabled p then [.mapper] else []))

/-- A conversion that is yet to be written. -/
def unwritten (result function parameter target : String) : List String :=
  braced ("private " ++ result ++ " " ++ function ++ "(" ++ parameter ++ ")")
    ["throw new UnsupportedOperationException(\"Conversion to " ++ target ++
      " is not implemented\");"]

/-- The conversions of a controller without a mapper. -/
def ownConversions (entity payload : String) : List (List String) :=
  [unwritten payload "toDto" (entity ++ " entity") payload,
   unwritten entity "toEntity" (payload ++ " dto") entity,
   braced ("private List<" ++ payload ++ "> toDtoList(List<" ++ entity ++ "> entities)")
     ["return entities.stream().map(this::toDto).collect(Collectors.toList());"]]

/-- The answer to a request for an entity that is not there. -/
def notFound (service : String) : List String :=
  braced ("if (" ++ service ++ ".findById(id).isEmpty())")
    ["return ResponseEntity.notFound().build();"]

/-- The annotation for requests to the path of one entity. -/
def itemMapping (verb : String) : String := "@" ++ verb ++ "Mapping(\"/\x7bid\x7d\")"

/-- The methods that answer requests. -/
def requestMethods (conversion : Conversion) (entity payload id idSetter service : String) :
    List (List String) :=
  let path := "@PathVariable " ++ id ++ " id"
  let body := "@RequestBody " ++ payload ++ " body"
  [ "@GetMapping" ::
      braced ("public ResponseEntity<List<" ++ payload ++ ">> getAll()")
        ["return ResponseEntity.ok(" ++ conversion.toDtoList (service ++ ".findAll()") ++ ");"],
    itemMapping "Get" ::
      braced ("public ResponseEntity<" ++ payload ++ "> getById(" ++ path ++ ")")
        ["return " ++ service ++ ".findById(id)",
         indentation ++ indentation ++ ".map(entity -> ResponseEntity.ok(" ++
           conversion.toDto "entity" ++ "))",
         indentation ++ indentation ++ ".orElse(ResponseEntity.notFound().build());"],
    "@PostMapping" ::
      braced ("public ResponseEntity<" ++ payload ++ "> create(" ++ body ++ ")")
        [entity ++ " saved = " ++ service ++ ".save(" ++ conversion.toEntity "body" ++ ");",
         "return ResponseEntity.status(HttpStatus.CREATED).body(" ++
           conversion.toDto "saved" ++ ");"],
    itemMapping "Put" ::
      braced ("public ResponseEntity<" ++ payload ++ "> update(" ++ path ++ ", " ++ body ++ ")")
        (notFound service ++
          [entity ++ " entity = " ++ conversion.toEntity "body" ++ ";",
           "entity." ++ idSetter ++ "(id);",
           "return ResponseEntity.ok(" ++ conversion.toDto (service ++ ".save(entity)") ++ ");"]),
    itemMapping "Delete" ::
      braced ("public ResponseEntity<Void> delete(" ++ path ++ ")")
        (notFound service ++
          [service ++ ".deleteById(id);",
           "return ResponseEntity.noContent().build();"]) ]

/-- The name of the method that sets the identifier. -/
def idSetter (m : Entity) : String :=
  "set" ++ Naming.capitalize ((m.identifier?.map (·.name)).getD "id")

/-- The controller of an entity that converts in a given way. -/
def controllerWith (conversion : Conversion) (m : Entity) (p : Settings) : Listing :=
  let package := Layer.controller.package m p
  let name := Layer.controller.className m p
  let entity := m.className
  let payload := if p.enabled .dto then Layer.dto.className m p else entity
  let deps := collaborators m p
  let service := Naming.decapitalize (Layer.service.className m p)
  { package := package
    imports :=
      controllerImports ++
        (if conversion = .own then ["java.util.stream.Collectors"] else []) ++
        foreign package
          (m.qualifiedName :: m.identifierType.imports ++
            (controllerSiblings p).map fun k => k.qualifiedName m p)
    markings := ["@RestController", "@RequestMapping(\"" ++ route m p ++ "\")"]
    declaration := "public class " ++ name
    members :=
      -- what it works with, and the constructor that is given it
      [deps.map fun d => "private final " ++ d.1 ++ " " ++ d.2 ++ ";",
       braced ("public " ++ name ++ "(" ++
           Text.join ", " (deps.map fun d => d.1 ++ " " ++ d.2) ++ ")")
         (deps.map fun d => "this." ++ d.2 ++ " = " ++ d.2 ++ ";")] ++
      requestMethods conversion entity payload m.identifierType.render (idSetter m) service ++
      (if conversion = .own then ownConversions entity payload else []) }

/-- The controller of an entity. -/
def controller (m : Entity) (p : Settings) : Except Text.Braces.Fault Listing :=
  (Conversion.ofSettings m p).map fun c => controllerWith c m p

end EntityScaffold.Artifact
