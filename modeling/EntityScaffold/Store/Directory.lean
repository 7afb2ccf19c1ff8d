import EntityScaffold.Artifact.All
import EntityScaffold.Files.Scan
import EntityScaffold.Store.Basic

/-!
# Stores in directories

Files below a source root, each in the directory of its package. What is there counts as taken,
whoever wrote it. On a dry run nothing is written, but the paths are noted all the same.
-/

namespace EntityScaffold

/-- A store in a directory. -/
structure DirectoryStore where
  tree : FileTree
  root : Path
  dryRun : Bool := false
  /-- The paths of all writes as seen from the root, in order. -/
  written : List String := []
  deriving Inhabited

namespace DirectoryStore

/-- The path of an identity's file. -/
def path (k : DirectoryStore) (id : Identity) : Path :=
  (Path.ofPackage k.root id.package).join (Path.ofString (id.className ++ ".java"))

/-- The identity that a file below the root stands for. -/
def identityOf (root p : Path) : Identity :=
  ⟨Text.join "." (p.relativeTo root).parent.names, p.stem⟩

/-- Identities of the files below the root. -/
def identities (k : DirectoryStore) : List Identity :=
  (k.tree.javaFiles k.root).map (identityOf k.root)

/-- The identity's file is there and holds the marker of generated files. -/
def isMarked (k : DirectoryStore) (id : Identity) : Bool :=
  match k.tree.read (k.path id) with
  | .ok text => Text.contains text generatedMarker
  | .error _ => false

/-- The content of a file: its text without blank characters at the end, and a newline. -/
def content (text : String) : String := Text.onChars (Text.trimEnd Text.isBlank) text ++ "\n"

/-- Notes a write. -/
def note (k : DirectoryStore) (p : Path) : DirectoryStore :=
  { k with written := k.written ++ [(p.relativeTo k.root).toString] }

instance : Store DirectoryStore where
  existing := identities
  write k id text :=
    let p := k.path id
    if k.dryRun then (.ok (), k.note p)
    else
      match k.tree.write p (content text) with
      | (.ok (), tree) => (.ok (), { k with tree }.note p)
      | (.error e, tree) => (.error ⟨id, e.message⟩, { k with tree })

end DirectoryStore

end EntityScaffold
