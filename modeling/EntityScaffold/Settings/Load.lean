import EntityScaffold.Files.Tree
import EntityScaffold.Settings.Document

/-!
# Settings files

The settings of a project are kept in a document in its own directory. Without that file the
settings stay as they are.
-/

namespace EntityScaffold

/-- Why a file of settings cannot be loaded. -/
inductive SettingsLoadFault
  | unreadable (fault : FileFault)
  | invalid (path : Path) (fault : SettingsFault)

namespace Settings

/-- The directory of a project's settings. -/
def directoryName : String := ".apigen"

/-- The file of a project's settings. -/
def fileName : String := "config.json"

/-- Where the settings of a project are. -/
def pathIn (root : Path) : Path := (root.child directoryName).child fileName

/-- The settings with the changes of a file, if the file is there. -/
def load (t : FileTree) (base : Settings) (p : Path) : Except SettingsLoadFault Settings := do
  if ← (t.has p).mapError .unreadable then
    let content ← (t.read p).mapError .unreadable
    (ofText base content).mapError (.invalid p)
  else return base

end Settings

end EntityScaffold
