import EntityScaffold.Artifact.Dto
import EntityScaffold.Artifact.Mapper
import EntityScaffold.Artifact.Repository
import EntityScaffold.Artifact.Service
import EntityScaffold.Artifact.Controller

/-!
# Generation

All artifacts of an entity: each enabled layer gives one, in the order in which they use each other.
-/

namespace EntityScaffold

/-- The line in front of every generated file. -/
def generatedMarker : String := "// @generated by apigen"

/-- The content of a generated file. -/
def markedText (text : String) : String := generatedMarker ++ "\n" ++ text

/-- A generated file. -/
structure Artifact where
  layer : Layer
  identity : Identity
  text : String
  deriving DecidableEq, Repr, Inhabited

namespace Artifact

def package (a : Artifact) : String := a.identity.package

def className (a : Artifact) : String := a.identity.className

/-- The path of a package, with slashes for dots. -/
def packagePath (package : String) : String :=
  String.ofList (package.toList.map fun c => if c = '.' then '/' else c)

/-- The path of the file below the source root. -/
def filePath (a : Artifact) : String :=
  let path := packagePath a.package
  (if path = "" then "" else path ++ "/") ++ a.className ++ ".java"

end Artifact

namespace Layer

/-- The layers in the order in which they are generated. -/
def generated : List Layer := [dto, mapper, repository, service, controller]

/-- The listing of a layer, enabled or not. Only a mapper cannot do without another artifact,
the transfer object. -/
def listing? (k : Layer) (m : Entity) (p : Settings) :
    Except Text.Braces.Fault (Option Listing) :=
  match k with
  | dto => .ok (some (Artifact.dto m p))
  | mapper => .ok (if p.enabled .dto then some (Artifact.mapper m p) else none)
  | repository => .ok (some (Artifact.repository m p))
  | service => .ok (some (Artifact.service m p))
  | controller => (Artifact.controller m p).map some

/-- The text of a layer, enabled or not. -/
def text? (k : Layer) (m : Entity) (p : Settings) :
    Except Text.Braces.Fault (Option String) :=
  (k.listing? m p).map fun l => l.map (·.render)

/-- The artifact of a layer, if it is enabled. -/
def build? (k : Layer) (m : Entity) (p : Settings) :
    Except Text.Braces.Fault (Option Artifact) :=
  if k.isEnabled p then
    (k.text? m p).map fun t => t.map fun text => ⟨k, k.identity m p, text⟩
  else .ok none

end Layer

/-- All artifacts of an entity, in order. -/
def Artifact.all (m : Entity) (p : Settings) : Except Text.Braces.Fault (List Artifact) :=
  (Layer.generated.mapM fun (k : Layer) => k.build? m p).map fun as => as.filterMap id

end EntityScaffold
