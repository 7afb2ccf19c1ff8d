import EntityScaffold.Artifact.Identity

/-!
# Features of a project

Generated code compiles only in a project that has certain libraries. A feature stands for what one
layer of generated code needs.
-/

namespace EntityScaffold

/-- Something a project may offer. Of features by any other name nothing is known. -/
inductive Feature
  | jpaEntity
  | springDataJpa
  | springWeb
  | mapStruct
  | lombok
  | other (name : String)
  deriving DecidableEq, Repr

namespace Feature

def name : Feature → String
  | jpaEntity => "JPA Entity"
  | springDataJpa => "Spring Data JPA"
  | springWeb => "Spring Web"
  | mapStruct => "MapStruct"
  | lombok => "Lombok"
  | other name => name

/-- The features that something is known of. -/
def known : List Feature := [jpaEntity, springDataJpa, springWeb, mapStruct, lombok]

/-- The feature of a name. -/
def ofName (name : String) : Feature := (known.find? (·.name == name)).getD (other name)

/-- The features that generated code needs under given settings. -/
def required (p : Settings) : List Feature :=
  [jpaEntity] ++
  (if p.enabled .repository then [springDataJpa] else []) ++
  (if p.enabled .controller then [springWeb] else []) ++
  (if Layer.mapper.isEnabled p then [mapStruct] else []) ++
  (if p.enabled .dto && p.accessorStyle then [lombok] else [])

end Feature

/-- What a check for features found. -/
structure FeatureReport where
  checked : List Feature
  missing : List Feature
  deriving DecidableEq, Repr

/-- No feature is missing. -/
def FeatureReport.isOk (r : FeatureReport) : Bool := r.missing.isEmpty

/-- Asks for the features that the settings require. -/
def FeatureReport.ofSettings (has : Feature → Bool) (p : Settings) : FeatureReport where
  checked := Feature.required p
  missing := (Feature.required p).filter fun f => !has f

end EntityScaffold
