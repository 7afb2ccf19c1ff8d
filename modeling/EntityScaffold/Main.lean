import EntityScaffold.Command.Program
import EntityScaffold.Console.Plain

/-!
# The program

The files that a command line speaks of are read into a file tree, and what the command changes
there is written back at the end. The command runs anew for every line that is typed, with all lines
so far, and shows what it did not show before.
-/

namespace EntityScaffold.Main

/-- The text of the place that names lead to. -/
def location (names : List String) : String := "/" ++ Text.join "/" names

/-- Files whose content matters. -/
def isRead (name : String) : Bool :=
  Text.toLower (Path.suffixOf name) = ".java" ||
    BuildKind.inRoot.any fun (k : BuildKind) => k.fileName = name

/-- Reads the file of names. -/
def readFile (names : List String) : IO FileNode := do
  return .file (← IO.FS.readBinFile (location names)).data.toList

/-- Reads the directory of names. What scans leave out and files without a meaning are empty. -/
partial def readDirectory (names : List String) : IO FileNode := do
  let here ← IO.currentDir
  let mut entries : Directory := []
  for e in ← (here / location names).readDir do
    let below := names ++ [e.fileName]
    let node ←
      if ← e.path.isDir then
        if Path.isExcluded e.fileName then pure (.directory []) else readDirectory below
      else if isRead e.fileName then readFile below
      else pure (.file [])
    entries := (e.fileName, node) :: entries
  return .directory entries

/-- Reads what is in the place of names, if anything is. -/
def readPlace (names : List String) (t : FileTree) : IO FileTree := do
  let here ← IO.currentDir
  if ← (here / location names).pathExists then
    let node ← if ← (here / location names).isDir then readDirectory names else readFile names
    return t.put names node
  else return t

/-- The directories that a request speaks of: the project's root first. -/
def directoriesOf : Request → List String
  | .entities root | .preview root .. | .features root .. => [root]
  | .generate root _ o => root :: o.sourceRoot.toList

/-- The file of settings that a request names. -/
def configOf : Request → Option String
  | .entities _ => none
  | .preview _ _ o | .generate _ o _ | .features _ o _ => o.config

/-- The absolute path of a text, if it has one. -/
def absolute? (d : Desk) (text : String) : Option Path :=
  match (Program.absolute text).run.run d with
  | (.ok p, _) => some p
  | (.error _, _) => none

/-- Reads all places that a request speaks of, files of settings last. -/
def readDesk (request : Request) : IO Desk := do
  let current := (Path.ofString (← IO.currentDir).toString).names
  let home := (← IO.getEnv "HOME").map Path.ofString
  let tree : FileTree := { current }
  let empty : Desk := { tree := tree.put current (.directory []), session := { lines := [] }, home }
  let directories := (directoriesOf request).filterMap (absolute? empty)
  let settings := directories.head?.toList.map Settings.pathIn ++
    (configOf request).toList.filterMap (absolute? empty)
  let mut tree := empty.tree
  for p in directories ++ settings do tree ← readPlace p.names tree
  return { empty with tree }

/-- All files of a tree. -/
def filesOf (t : FileTree) : List (List String × Text.Bytes) := Directory.files (t.directory ⟨"/", []⟩)

/-- Writes the files that differ between two trees. -/
def writeChanges (before after : FileTree) : IO Unit := do
  let here ← IO.currentDir
  let old := filesOf before
  for (names, content) in filesOf after do
    if old.lookup names != some content then
      IO.FS.createDirAll (here / location names.dropLast)
      IO.FS.writeBinFile (here / location names) ⟨content.toArray⟩

/-- Shows events. -/
def draw (events : List ConsoleEvent) : IO Unit := do
  let out ← IO.getStdout
  for e in events do out.putStr e.plainText
  out.flush

/-- Runs a request with the lines that are typed so far, of whose events some are shown. -/
partial def converse (request : Request) (d : Desk) (lines : List String) (shown : Nat) :
    IO UInt32 := do
  let (outcome, after) := (Program.ofRequest request).finish { d with session := { lines } }
  draw (after.session.events.drop shown)
  match outcome with
  -- a question is open: the next line answers it
  | .broken .endOfInput =>
    let line ← (← IO.getStdin).getLine
    if line.isEmpty then
      writeChanges d.tree after.tree
      return 1
    else
      converse request d (lines ++ [(line.dropEndWhile fun c => c == '\n').toString])
        after.session.events.length
  | outcome =>
    writeChanges d.tree after.tree
    match outcome with
    | .finished code => return code.toUInt32
    | _ =>
      (← IO.getStderr).putStr "The command ended by a fault.\n"
      return 1

/-- The commands, in one line each. -/
def usage : String :=
  "Commands, each with --root DIRECTORY:\n" ++
  "  entities   list the entities of a project\n" ++
  "  preview    show what is generated for --entity NAME\n" ++
  "  generate   generate and write artifacts\n" ++
  "  deps       report missing libraries\n"

/-- Does what a command line asks for. -/
def start (words : List String) : IO UInt32 := do
  match Request.ofWords words with
  | .error .help =>
    IO.print usage
    return UsageStop.help.exitCode.toUInt32
  | .error .misuse =>
    (← IO.getStderr).putStr usage
    return UsageStop.misuse.exitCode.toUInt32
  | .ok request => converse request (← readDesk request) [] 0

end EntityScaffold.Main

/-- The program. -/
def main (words : List String) : IO UInt32 := EntityScaffold.Main.start words
