import EntityScaffold.Files.Tree
import EntityScaffold.Text.Case

/-!
# Scans of directories

Scans walk through everything below a directory. A scan for Java files does not enter directories
that hold no sources, such as those of tools and of build results. What scans find comes in the
order of paths.
-/

namespace EntityScaffold

namespace Path

/-- Directories that scans leave out. -/
def excludedDirectories : List String :=
  [".apigen", ".git", ".idea", ".vscode", "target", "build", "out", ".gradle", "node_modules",
   "__pycache__", ".mvn"]

/-- Files that scans leave out. -/
def excludedFiles : List String := [".DS_Store"]

def isExcluded (directory : String) : Bool := directory ∈ excludedDirectories

/-- The path without its last name. -/
def parent (p : Path) : Path := { p with names := p.names.dropLast }

/-- The last name. -/
def fileName (p : Path) : String := p.names.getLast?.getD ""

/-- The last name without its suffix. -/
def stem (p : Path) : String :=
  let name := p.fileName.toList
  String.ofList (name.take (name.length - (suffixOf p.fileName).toList.length))

/-- The path comes before another one. -/
def le (p q : Path) : Bool := namesLe p.names q.names

end Path

namespace Directory

/-- The name is that of a Java file. -/
def isJavaName (name : String) : Bool :=
  name ∉ Path.excludedFiles && Text.toLower (Path.suffixOf name) = ".java"

end Directory

mutual

/-- The names that lead to Java files from above something of a name. Excluded directories are not
entered. -/
def FileNode.javaFiles (name : String) : FileNode → List (List String)
  | .file _ => if Directory.isJavaName name then [[name]] else []
  | .directory entries =>
    if Path.isExcluded name then [] else (Directory.javaFiles entries).map (name :: ·)
termination_by structural n => n

/-- The names that lead to Java files. -/
def Directory.javaFiles : List (String × FileNode) → List (List String)
  | [] => []
  | (name, n) :: rest => n.javaFiles name ++ Directory.javaFiles rest
termination_by structural entries => entries

end

mutual

/-- The names that lead to everything of a wanted name from above something. All directories are
entered. -/
def FileNode.allNamed (wanted name : String) : FileNode → List (List String)
  | .file _ => if name = wanted then [[name]] else []
  | .directory entries =>
    (if name = wanted then [[name]] else []) ++
      (Directory.allNamed wanted entries).map (name :: ·)
termination_by structural n => n

/-- The names that lead to everything of a wanted name. -/
def Directory.allNamed (wanted : String) : List (String × FileNode) → List (List String)
  | [] => []
  | (name, n) :: rest => n.allNamed wanted name ++ Directory.allNamed wanted rest
termination_by structural entries => entries

end

mutual

/-- All files from above something of a name, by the names that lead to them. -/
def FileNode.files (name : String) : FileNode → List (List String × Text.Bytes)
  | .file content => [([name], content)]
  | .directory entries => (Directory.files entries).map fun f => (name :: f.1, f.2)
termination_by structural n => n

/-- All files, by the names that lead to them. -/
def Directory.files : List (String × FileNode) → List (List String × Text.Bytes)
  | [] => []
  | (name, n) :: rest => n.files name ++ Directory.files rest
termination_by structural entries => entries

end

namespace FileTree

/-- The Java files below a directory, in order. -/
def javaFiles (t : FileTree) (p : Path) : List Path :=
  ((Directory.javaFiles (t.directory p)).map p.descend).mergeSort Path.le

/-- Everything of a name below a directory, in order, but nothing with an excluded directory
anywhere in its path. -/
def allNamed (t : FileTree) (p : Path) (name : String) : List Path :=
  ((Directory.allNamed name (t.directory p)).map p.descend).mergeSort Path.le |>.filter fun q =>
    !q.names.any Path.isExcluded

end FileTree

end EntityScaffold
