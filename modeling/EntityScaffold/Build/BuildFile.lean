import EntityScaffold.Build.Feature

/-!
# Build files

A build file offers a feature if it names a library that brings it. The file is searched as a text,
comments included.
-/

namespace EntityScaffold

/-- The kinds of build files. -/
inductive BuildKind
  | maven
  | gradleGroovy
  | gradleKotlin
  | unknown
  deriving DecidableEq, Repr, Inhabited

def BuildKind.name : BuildKind → String
  | maven => "maven"
  | gradleGroovy => "gradle_groovy"
  | gradleKotlin => "gradle_kts"
  | unknown => "unknown"

/-- A build file by its kind and its text. -/
structure BuildFile where
  kind : BuildKind
  text : String
  deriving Inhabited

/-- Names of libraries each of which brings a feature. -/
def Feature.providers : Feature → List String
  | .jpaEntity =>
    ["jakarta.persistence-api", "javax.persistence-api", "persistence-api",
     "spring-boot-starter-data-jpa", "hibernate-core"]
  | .springDataJpa => ["spring-boot-starter-data-jpa", "spring-data-jpa"]
  | .springWeb => ["spring-boot-starter-web", "spring-webmvc"]
  | .mapStruct => ["mapstruct"]
  | .lombok => ["lombok"]
  | .other _ => []

namespace BuildFile

/-- The text holds one of the ways in which the file names a library. -/
def names (b : BuildFile) (library : String) : Bool :=
  match b.kind with
  | .maven => Text.contains b.text ("<artifactId>" ++ library ++ "</artifactId>")
  | _ =>
    Text.contains b.text (":" ++ library ++ ":") || Text.contains b.text (":" ++ library ++ "'") ||
      Text.contains b.text (":" ++ library ++ "\"")

/-- The file offers a feature. Features that nothing is known of are taken to be there. -/
def has (b : BuildFile) (f : Feature) : Bool := f.providers.isEmpty || f.providers.any b.names

end BuildFile

end EntityScaffold
