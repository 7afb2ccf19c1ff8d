import EntityScaffold.Artifact.All
import EntityScaffold.Build.Feature
import EntityScaffold.Conflict.Batch
import EntityScaffold.Entity.Check
import EntityScaffold.Store.Basic
import EntityScaffold.Text.WholeWord

/-!
# Reports and logs

What a run tells while it goes on, line by line, and what it reports at its end.
-/

namespace EntityScaffold

/-- The level of a log line. -/
inductive LogLevel
  | info
  | warning
  | error
  | skip
  | write
  | rename
  deriving DecidableEq, Repr

/-- The word in front of the lines of a level. -/
def LogLevel.tag : LogLevel → String
  | info => "[INFO]"
  | warning => "[WARN]"
  | error => "[ERROR]"
  | skip => "[SKIP]"
  | write => "[WRITE]"
  | rename => "[RENAME]"

/-- A log line without its level's word. -/
structure LogLine where
  level : LogLevel
  text : String
  deriving DecidableEq, Repr

/-- The whole line. -/
def LogLine.line (l : LogLine) : String := l.level.tag ++ " " ++ l.text

/-- How a run ends. -/
inductive RunStatus
  | ok
  | invalid
  | cancelled
  | failed
  deriving DecidableEq, Repr

def RunStatus.name : RunStatus → String
  | ok => "ok"
  | invalid => "invalid"
  | cancelled => "cancelled"
  | failed => "failed"

/-- An artifact by its layer and the identity it is filed under. -/
structure FiledArtifact where
  layer : Layer
  id : Identity
  deriving DecidableEq, Repr

/-- The reference to an artifact under its own identity. -/
def Artifact.ref (a : Artifact) : FiledArtifact := ⟨a.layer, a.identity⟩

/-- A write that ended a run. -/
structure RunFailure where
  layer : Layer
  cause : WriteFault
  deriving DecidableEq, Repr

/-- The words for it. -/
def RunFailure.message (f : RunFailure) : String :=
  f.layer.label ++ " " ++ f.cause.id.package ++ "." ++ f.cause.id.className ++ ": " ++
    f.cause.message

/-- What a run reports. -/
structure RunReport where
  status : RunStatus
  written : List FiledArtifact := []
  skipped : List FiledArtifact := []
  defects : List Defect := []
  concerns : List Concern := []
  missing : List Feature := []
  failure : Option RunFailure := none
  deriving DecidableEq, Repr

/-- Why a run ends without a report. -/
inductive RunFault
  | notAnEntity (qualifiedName : String)
  | noNameLeft (fault : Batch.NoNameLeft)
  | braces (fault : Text.Braces.Fault)
  | template (fault : Text.Template.Fault)
  deriving DecidableEq, Repr

end EntityScaffold
