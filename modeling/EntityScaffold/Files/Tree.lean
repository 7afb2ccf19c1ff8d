import EntityScaffold.Path
import EntityScaffold.Text.Utf8

/-!
# File trees

A file system: directories that hold files and directories by their names. A path is walked name by
name: every name but the last must be that of a directory, and two dots go back up.
-/

namespace EntityScaffold

/-- A file, or a directory with what it holds. -/
inductive FileNode
  | file (content : Text.Bytes)
  | directory (entries : List (String × FileNode))
  deriving Inhabited

/-- What a directory holds. -/
abbrev Directory := List (String × FileNode)

/-- Why a path cannot be used. -/
inductive FileFault
  | notFound
  | notADirectory
  | isADirectory
  | occupied
  | nameTooLong
  deriving DecidableEq, Repr

/-- The words for it. -/
def FileFault.message : FileFault → String
  | notFound => "No such file or directory"
  | notADirectory => "Not a directory"
  | isADirectory => "Is a directory"
  | occupied => "File exists"
  | nameTooLong => "File name too long"

namespace FileNode

def isDirectory : FileNode → Bool
  | file _ => false
  | directory _ => true

/-- What names lead to. -/
def find? : FileNode → List String → Option FileNode
  | n, [] => some n
  | file _, _ :: _ => none
  | directory entries, name :: rest =>
    match entries.lookup name with
    | some n => n.find? rest
    | none => none

end FileNode

namespace Directory

/-- The directory with something under a name, in the place of what was there. -/
def set (name : String) (n : FileNode) : Directory → Directory
  | [] => [(name, n)]
  | (other, old) :: rest => if other = name then (name, n) :: rest else (other, old) :: set name n rest

end Directory

namespace FileNode

/-- The node with something put where names lead. Directories that are missing on the way are made,
and a file on the way stays. -/
def put (new : FileNode) : List String → FileNode → FileNode
  | [], _ => new
  | _ :: _, file content => file content
  | name :: rest, directory entries =>
    directory (Directory.set name (put new rest ((entries.lookup name).getD (directory []))) entries)

end FileNode

/-- A file system by its root. -/
structure FileTree where
  root : FileNode := .directory []
  /-- The directory in which relative paths start. -/
  current : List String := []
  deriving Inhabited

namespace FileTree

/-- The number of bytes that a name may have. -/
def maxNameBytes : Nat := 255

/-- What is in the place that names lead to from the root. -/
def node? (t : FileTree) (place : List String) : Option FileNode := t.root.find? place

/-- Where names lead from a place. The place they lead to may be empty, but it is in a directory. -/
def walk (t : FileTree) (place : List String) : List String → Except FileFault (List String)
  | [] => .ok place
  | name :: rest =>
    match t.node? place with
    | none => .error .notFound
    | some (.file _) => .error .notADirectory
    | some (.directory _) =>
      if name.utf8ByteSize > maxNameBytes then .error .nameTooLong
      else t.walk (if name = ".." then place.dropLast else place ++ [name]) rest

/-- Where a path leads. -/
def place (t : FileTree) (p : Path) : Except FileFault (List String) :=
  t.walk (if p.root = "" then t.current else []) p.names

/-- What a path leads to. -/
def locate (t : FileTree) (p : Path) : Except FileFault FileNode := do
  match t.node? (← t.place p) with
  | some n => .ok n
  | none => .error .notFound

/-- Whether a path leads to something. Names that are too long are no answer. -/
def has (t : FileTree) (p : Path) : Except FileFault Bool :=
  match t.locate p with
  | .ok _ => .ok true
  | .error .nameTooLong => .error .nameTooLong
  | .error _ => .ok false

/-- The path leads to a directory. -/
def isDirectory (t : FileTree) (p : Path) : Bool :=
  match t.locate p with
  | .ok n => n.isDirectory
  | .error _ => false

/-- What the directory of a path holds; any other path holds nothing. -/
def directory (t : FileTree) (p : Path) : Directory :=
  match t.locate p with
  | .ok (.directory entries) => entries
  | _ => []

/-- The text of a file. -/
def read (t : FileTree) (p : Path) : Except FileFault String := do
  match ← t.locate p with
  | .file content => return Text.decode content
  | .directory _ => .error .isADirectory

/-- The tree with something in a place. -/
def put (t : FileTree) (place : List String) (n : FileNode) : FileTree :=
  { t with root := FileNode.put n place t.root }

/-- Makes a directory, unless it is there. -/
def makeDirectory (t : FileTree) (p : Path) : Except FileFault FileTree := do
  let place ← t.place p
  match t.node? place with
  | some (.directory _) => return t
  | some (.file _) => .error .occupied
  | none => return t.put place (.directory [])

/-- Makes the directory that names in reverse lead to from the root of a path, and those above it
where they are missing. Directories that are made stay even if a later one cannot be made. -/
def makeDirectories (t : FileTree) (root : String) : List String → Except FileFault Unit × FileTree
  | [] => (.ok (), t)
  | name :: above =>
    let p : Path := ⟨root, (name :: above).reverse⟩
    match t.makeDirectory p with
    | .ok t => (.ok (), t)
    | .error .notFound =>
      -- first those above it, then the directory itself
      match t.makeDirectories root above with
      | (.error e, t) => (.error e, t)
      | (.ok (), t) =>
        match t.makeDirectory p with
        | .ok t => (.ok (), t)
        | .error e => (.error e, t)
    | .error e => (.error e, t)

/-- Puts a file where a path leads, in the place of an earlier one. -/
def putFile (t : FileTree) (p : Path) (content : Text.Bytes) : Except FileFault FileTree := do
  let place ← t.place p
  match t.node? place with
  | some (.directory _) => .error .isADirectory
  | _ => return t.put place (.file content)

/-- Writes a text to a file, with the directories that lead to it. -/
def write (t : FileTree) (p : Path) (text : String) : Except FileFault Unit × FileTree :=
  match t.makeDirectories p.root p.names.reverse.tail with
  | (.error e, t) => (.error e, t)
  | (.ok (), t) =>
    match t.putFile p (Text.encode text) with
    | .ok t => (.ok (), t)
    | .error e => (.error e, t)

end FileTree

end EntityScaffold
