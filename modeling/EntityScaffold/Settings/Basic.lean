import EntityScaffold.Entity.Basic
import EntityScaffold.Naming

/-!
# Generation settings

An entity is given one class in each layer of an application. The settings say for every layer
whether its class is generated, how it is called and where its package lies, and settle a few
matters for all of them.
-/

namespace EntityScaffold

/-- The layers in which an entity gets a class. -/
inductive Layer
  | dto
  | repository
  | service
  | controller
  | mapper
  deriving DecidableEq, Repr, Inhabited

namespace Layer

/-- All layers. -/
def all : List Layer := [dto, repository, service, controller, mapper]

theorem mem_all (k : Layer) : k ∈ all := by cases k <;> decide

/-- The name under which a layer is reported. -/
def label : Layer → String
  | dto => "DTO"
  | repository => "Repository"
  | service => "Service"
  | controller => "Controller"
  | mapper => "Mapper"

/-- The name under which a layer is configured. -/
def key : Layer → String
  | dto => "dto"
  | repository => "repository"
  | service => "service"
  | controller => "controller"
  | mapper => "mapper"

/-- The layer that is configured under a name. -/
def ofKey? (name : String) : Option Layer := all.find? (·.key == name)

end Layer

/-- The settings of one layer. -/
structure LayerSettings where
  enabled : Bool
  suffix : String
  subPackage : String
  deriving DecidableEq, Repr, Inhabited

/-- The settings of a generation. -/
structure Settings where
  layer : Layer → LayerSettings
  basePackage : String
  /-- Accessors of transfer objects are left to annotations. -/
  accessorStyle : Bool
  /-- Repositories get a query for each simple field. -/
  queryMethods : Bool
  apiPrefix : String
  /-- Existing files are overwritten without a question. -/
  overwrite : Bool

namespace Settings

/-- The settings without any configuration. -/
def standard : Settings where
  layer
    | .dto => ⟨true, "Dto", "dto"⟩
    | .repository => ⟨true, "Repository", "repository"⟩
    | .service => ⟨true, "Service", "service"⟩
    | .controller => ⟨true, "Controller", "controller"⟩
    | .mapper => ⟨true, "Mapper", "mapper"⟩
  basePackage := ""
  accessorStyle := true
  queryMethods := true
  apiPrefix := ""
  overwrite := false

instance : Inhabited Settings := ⟨standard⟩

/-- Whether a layer is enabled by itself. -/
def enabled (p : Settings) (k : Layer) : Bool := (p.layer k).enabled

/-- The settings with other settings for one layer. -/
def withLayer (p : Settings) (k : Layer) (a : LayerSettings) : Settings :=
  { p with layer := fun j => if j = k then a else p.layer j }

@[simp] theorem layer_withLayer (p : Settings) (k j : Layer) (a : LayerSettings) :
    (p.withLayer k a).layer j = if j = k then a else p.layer j := rfl

/-- The package of a part: the base package, or else that of the entity, and the part's own. -/
def package (p : Settings) (m : Entity) (subPackage : String) : String :=
  let base := Text.strip p.basePackage
  Package.joinParts [if base = "" then m.package else base, subPackage]

end Settings

end EntityScaffold
