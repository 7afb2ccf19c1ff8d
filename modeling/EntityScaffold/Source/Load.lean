import EntityScaffold.Files.Scan
import EntityScaffold.Source.Scan

/-!
# Loading sources

The Java files of a project are read one after the other. A file whose text is no compilation unit
is noted and left out, but a truncated text ends the scan, and so does a file that cannot be read.
-/

namespace EntityScaffold

/-- Why sources cannot be loaded. -/
inductive LoadFault
  | unreadable (fault : FileFault)
  | truncated (place : Java.Truncation)
  deriving DecidableEq, Repr

namespace SourceCatalog

/-- The units of files, and the files whose text is none. -/
def loadUnits (t : FileTree) : List Path → Except LoadFault (List SourceUnit × List String)
  | [] => .ok ([], [])
  | p :: rest => do
    let text ← (t.read p).mapError .unreadable
    match SourceUnit.read (some p.toString) text with
    | .error (.truncated place) => .error (.truncated place)
    | .error _ =>
      let (units, failures) ← loadUnits t rest
      return (units, p.toString :: failures)
    | .ok u =>
      let (units, failures) ← loadUnits t rest
      return (u :: units, failures)

/-- The catalog of files. -/
def ofFiles (t : FileTree) (files : List Path) : Except LoadFault SourceCatalog :=
  (loadUnits t files).map fun (units, failures) => ⟨(Scan.mk units).classes, failures⟩

/-- The catalog of the Java files below a directory. Any other path is taken for a file. -/
def load (t : FileTree) (root : Path) : Except LoadFault SourceCatalog :=
  ofFiles t (if t.isDirectory root then t.javaFiles root else [root])

end SourceCatalog

end EntityScaffold
