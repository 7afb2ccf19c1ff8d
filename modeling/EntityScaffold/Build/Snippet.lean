import EntityScaffold.Build.Feature

/-!
# Build file snippets

The lines that add missing features to a build file. They are shown and never put into the file.
-/

namespace EntityScaffold

/-- A library as build files name it. -/
structure Library where
  group : String
  artifact : String
  version : Option String := none
  mavenScope : Option String := none
  configuration : String := "implementation"
  deriving DecidableEq, Repr

/-- The parts of a library with colons between them. -/
def Library.text (c : Library) : String :=
  let base := c.group ++ ":" ++ c.artifact
  match c.version with
  | some v => base ++ ":" ++ v
  | none => base

/-- The libraries that bring a feature. -/
def Feature.libraries : Feature → List Library
  | .jpaEntity =>
    [{ group := "jakarta.persistence", artifact := "jakarta.persistence-api",
       version := some "3.1.0" }]
  | .springDataJpa =>
    [{ group := "org.springframework.boot", artifact := "spring-boot-starter-data-jpa" }]
  | .springWeb =>
    [{ group := "org.springframework.boot", artifact := "spring-boot-starter-web" }]
  | .mapStruct =>
    [{ group := "org.mapstruct", artifact := "mapstruct", version := some "1.5.3.Final" },
     { group := "org.mapstruct", artifact := "mapstruct-processor",
       version := some "1.5.3.Final", mavenScope := some "provided",
       configuration := "annotationProcessor" }]
  | .lombok =>
    [{ group := "org.projectlombok", artifact := "lombok", version := some "1.18.28",
       mavenScope := some "provided", configuration := "compileOnly" },
     { group := "org.projectlombok", artifact := "lombok", version := some "1.18.28",
       mavenScope := some "provided", configuration := "annotationProcessor" }]
  | .other _ => []

namespace Snippet

/-- An element with a text inside. -/
def element (name text : String) : String := "<" ++ name ++ ">" ++ text ++ "</" ++ name ++ ">"

/-- The lines of a library in a Maven file. -/
def mavenEntry (c : Library) : String :=
  Text.join "\n"
    (["<dependency>", "    " ++ element "groupId" c.group,
      "    " ++ element "artifactId" c.artifact] ++
      (c.version.toList.map fun v => "    " ++ element "version" v) ++
      (c.mavenScope.toList.map fun s => "    " ++ element "scope" s) ++
      ["</dependency>"])

/-- The lines for a Maven file. Libraries with the same lines are listed once. -/
def maven (missing : List Feature) : String :=
  if missing.isEmpty then ""
  else
    Text.join "\n" ("<!-- missing dependencies -->" ::
      (missing.flatMap fun f => f.libraries.map mavenEntry).eraseDups) ++ "\n"

/-- The line of a library in a Gradle file, in either of its languages. -/
def gradleLine (kotlin : Bool) (c : Library) : String :=
  if kotlin then c.configuration ++ "(\"" ++ c.text ++ "\")"
  else c.configuration ++ " '" ++ c.text ++ "'"

/-- The lines for a Gradle file. -/
def gradle (kotlin : Bool) (missing : List Feature) : String :=
  if missing.isEmpty then ""
  else
    Text.join "\n" ("// missing dependencies" ::
      missing.flatMap fun f => f.libraries.map (gradleLine kotlin)) ++ "\n"

end Snippet

end EntityScaffold
