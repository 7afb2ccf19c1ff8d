import EntityScaffold.Generation.Report

/-!
# Notices

What is shown to people about the conditions in which a run can end.
-/

namespace EntityScaffold

/-- How much a notice matters. -/
inductive NoticeLevel
  | info
  | warning
  | error
  deriving DecidableEq, Repr

def NoticeLevel.name : NoticeLevel → String
  | info => "info"
  | warning => "warning"
  | error => "error"

/-- A notice for people. -/
structure Notice where
  level : NoticeLevel
  code : String
  title : String
  description : String
  suggestions : List String
  deriving DecidableEq, Repr

namespace Notice

/-- Items as a list with dashes. -/
def dashed (items : List String) : String := Text.join "\n" (items.map ("- " ++ ·))

/-- The class has errors. -/
def defective (errors : List String) : Notice where
  level := .error
  code := "ENTITY_INVALID"
  title := "Invalid JPA entity"
  description :=
    "The selected entity has errors that prevent code generation. " ++
      "Fix the following problems:\n\n" ++ dashed errors
  suggestions :=
    ["Make sure the class is annotated with JPA @Entity",
     "Check that the class has a field annotated with @Id",
     "If the class is abstract, use a concrete class instead",
     "Add a no-argument constructor if there is none",
     "Use collections (List, Set, ...) for OneToMany and ManyToMany relationships"]

/-- The class has warnings. -/
def doubtful (warnings : List String) : Notice where
  level := .warning
  code := "ENTITY_WARNINGS"
  title := "JPA entity warnings"
  description :=
    "The selected entity has warnings that do not block generation " ++
      "but may cause problems:\n\n" ++ dashed warnings
  suggestions :=
    ["Consider implementing java.io.Serializable",
     "Give every collection an explicit generic type",
     "Avoid circular references between relationships",
     "Use FetchType.LAZY for large collections"]

/-- The project misses libraries. -/
def missingFeatures (missing : List String) (maven gradle : String) : Notice where
  level := .warning
  code := "MISSING_DEPENDENCIES"
  title := "Missing project dependencies"
  description :=
    "The generated code needs libraries that are not in your project. " ++
      "Missing:\n\n" ++ dashed missing ++
      "\n\nThe generated code will not compile without them."
  suggestions :=
    ["For Maven, add to pom.xml:\n\n" ++ maven,
     "For Gradle, add to build.gradle:\n\n" ++ gradle,
     "Reload the project after adding the dependencies"]

/-- A file could not be written. -/
def unwritable (detail file : String) : Notice where
  level := .error
  code := "FILE_WRITE_ERROR"
  title := "Error while writing a file"
  description := "An error occurred while writing " ++ file ++ ".\n\nDetails: " ++ detail
  suggestions :=
    ["Check that you have write permission in the target directory",
     "Close the file if another program has it open"]

/-- Files were generated. -/
def finished (count : Int) : Notice where
  level := .info
  code := "GENERATION_SUCCESS"
  title := "Generation complete"
  description := toString count ++ " file(s) generated."
  suggestions := ["Check that every required dependency is present in your project"]

end Notice

end EntityScaffold
