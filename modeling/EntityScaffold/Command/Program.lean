import EntityScaffold.Build.Find
import EntityScaffold.Build.Snippet
import EntityScaffold.Command.Request
import EntityScaffold.Console.Session
import EntityScaffold.Generation.Run
import EntityScaffold.Settings.Load
import EntityScaffold.Store.Directory
import EntityScaffold.Source.Load

/-!
# Programs

What commands do, in a file system and a session. A command ends with an exit code, with a complaint
that is shown and has an exit code too, or by a fault that nobody here can answer. What is shown and
written until then stays.
-/

namespace EntityScaffold

/-- What a program works on. -/
structure Desk where
  tree : FileTree
  session : Session
  /-- The directory that a tilde stands for. -/
  home : Option Path := none
  deriving Inhabited

/-- A fault that ends a program. -/
inductive ProgramFault
  | unreadable (fault : FileFault)
  | truncated (place : Java.Truncation)
  | braces (fault : Text.Braces.Fault)
  | template (fault : Text.Template.Fault)
  /-- Nobody knows the directory that a tilde stands for. -/
  | noHome
  /-- A question found no answer. -/
  | endOfInput
  deriving DecidableEq, Repr

/-- Why a program ends before its end. -/
inductive Halt
  | complaint (exitCode : Nat) (text : String)
  | fault (fault : ProgramFault)
  deriving DecidableEq, Repr

abbrev Program := ExceptT Halt (StateM Desk)

/-- How a command line ends. -/
inductive Outcome
  | finished (exitCode : Nat)
  | stopped (stop : UsageStop)
  | broken (fault : ProgramFault)
  deriving DecidableEq, Repr

namespace Program

/-- The exit code for a run that did not succeed. -/
def failure : Nat := 1

/-- The exit code for a request that cannot be met. -/
def unusable : Nat := 2

/-- Ends the program with a complaint. -/
def complain {α : Type} (exitCode : Nat) (text : String) : Program α :=
  throw (.complaint exitCode text)

/-- The value, or the end of the program. -/
def orFault {ε α : Type} (fault : ε → ProgramFault) : Except ε α → Program α
  | .ok a => pure a
  | .error e => throw (.fault (fault e))

def files : Program FileTree := do return (← get).tree

def display (e : ConsoleEvent) : Program Unit :=
  modify fun d => { d with session := d.session.shown e }

/-- Shows a text with markup. -/
def say (text : String) : Program Unit := display (.say text)

def log (level : LogLevel) (text : String) : Program Unit := display (.log ⟨level, text⟩)

def tell (m : Notice) : Program Unit := display m.event

/-! ## Paths -/

/-- A path with its tilde replaced. -/
def expand (p : Path) : Program Path := do
  match p.root, p.names with
  | "", name :: rest =>
    match name.toList, (← get).home with
    | ['~'], some home => return home.descend rest
    | '~' :: _, _ => throw (.fault .noHome)
    | _, _ => return p
  | _, _ => return p

/-- The absolute path that a text spells. -/
def absolute (text : String) : Program Path := do
  return (← expand (Path.ofString text)).resolve (← files).current

/-- The root of a project. -/
def projectRoot (text : String) : Program Path := do
  let root ← absolute text
  let there ← orFault .unreadable ((← files).has root)
  if there && (← files).isDirectory root then return root
  else complain unusable ("Project root not found: " ++ root.toString)

/-- The directory where Java projects keep their sources. -/
def standardSourceRoot (root : Path) : Path := root.descend ["src", "main", "java"]

/-- Where files are written. -/
def sourceRoot (root : Path) (given : Option String) : Program Path := do
  match given with
  | some text =>
    if text = "" then standard else absolute text
  | none => standard
where
  standard : Program Path := do
    return if (← files).isDirectory (standardSourceRoot root) then standardSourceRoot root else root

/-! ## Settings -/

/-- The names in a list with commas between them. -/
def nameList (text : String) : List String :=
  ((text.toList.splitOn ',').map fun s => Text.strip (.ofList s)).filter (· != "")

/-- The settings without the layer that a name stands for. -/
def skip (p : Settings) (name : String) : Program Settings :=
  match Layer.ofKey? (Text.toLower name) with
  | some k => return p.withLayer k { p.layer k with enabled := false }
  | none =>
    complain unusable ("unknown artifact in --skip: " ++ name ++ " (expected: " ++
      Text.join ", " (Text.sorted (Layer.all.map (·.key))) ++ ")")

/-- The settings in a file. -/
def readSettings (p : Path) : Program Settings := do
  match Settings.load (← files) .standard p with
  | .ok settings => return settings
  | .error (.unreadable e) => throw (.fault (.unreadable e))
  | .error (.invalid p e) => complain unusable (p.toString ++ ": " ++ e.message)

/-- The file of the settings. One that is named must be there. -/
def settingsPath (root : Path) (given : Option String) : Program Path := do
  match given with
  | none | some "" => return Settings.pathIn root
  | some text =>
    let p ← expand (Path.ofString text)
    if ← orFault .unreadable ((← files).has p) then return p
    else complain unusable ("config file not found: " ++ p.toString)

/-- The settings of a project, with the changes that options ask for. -/
def settings (root : Path) (o : SettingsOptions) : Program Settings := do
  let p ← readSettings (← settingsPath root o.config)
  let p : Settings :=
    { p with
      basePackage := o.basePackage.getD p.basePackage
      apiPrefix := o.apiPrefix.getD p.apiPrefix
      accessorStyle := p.accessorStyle && !o.noLombok
      queryMethods := p.queryMethods && !o.noQueryMethods
      overwrite := p.overwrite || o.overwrite }
  (nameList o.skip).foldlM skip p

/-! ## Sources -/

/-- The sources of a project. Files that are no Java are warned of. -/
def sources (root : Path) : Program SourceCatalog := do
  match SourceCatalog.load (← files) root with
  | .ok catalog =>
    for path in catalog.failures do log .warning ("Cannot parse " ++ path)
    return catalog
  | .error (.unreadable e) => throw (.fault (.unreadable e))
  | .error (.truncated place) => throw (.fault (.truncated place))

/-- A class of a project by its name. -/
def classNamed (catalog : SourceCatalog) (name : String) : Program SourceClass :=
  match catalog.find? name with
  | some c => pure c
  | none => complain unusable ("Entity not found: " ++ name)

/-- The columns that tell of a class as an entity. -/
def entityColumns (c : SourceClass) : List String :=
  match Entity.ofClass? .standard c with
  | none => ["-", "-"]
  | some m =>
    let id := match m.identifier? with
      | some f => f.name ++ ":" ++ m.identifierType.render
      | none => "-"
    [id, toString m.fields.length]

/-- A row of the table of entities. -/
def entityRow (root : Path) (number : Nat) (c : SourceClass) : List String :=
  let file := match c.file with
    | some path => ((Path.ofString path).relativeTo root).toString
    | none => ""
  [toString number, c.name, c.package] ++ entityColumns c ++ [file]

/-- The table of entities. -/
def entityTable (root : Path) (entities : List SourceClass) : ConsoleEvent :=
  .table "Entities found (@Entity)" ["#", "Entity", "Package", "ID", "Fields", "File"]
    ((entities.zipIdx 1).map fun (c, n) => entityRow root n c)

/-! ## Runs -/

/-- The answers that people may give to a conflict, each with its meaning. -/
def conflictAnswers : List (String × Option Answer) :=
  ConflictAction.all.map (fun a => (a.name, some (.once a))) ++
    ConflictAction.all.map (fun a => (a.name ++ "-all", some (.always a))) ++ [("cancel", none)]

/-- The question what to do in a conflict. -/
def conflictQuestion : Question where
  text := "Action"
  choices := conflictAnswers.map (·.1)
  default := "skip"
  complaint := "[prompt.invalid.choice]Please select one of the available options"

/-- Asks people what to do in a conflict. -/
def conflictAdvisor (k : DirectoryStore) : Advisor Session := fun id s =>
  let origin := if k.isMarked id then " (generated earlier)" else ""
  let s := s.shown (.say ("\n[yellow]" ++ id.package ++ "." ++ id.className ++
    "[/] already exists" ++ origin ++ "."))
  let (answer, s) := s.ask conflictQuestion
  ((answer.bind fun a => conflictAnswers.lookup a).join, s)

/-- The partner of a run: the people at the console and the project's build file. -/
def partner (o : GenerateOptions) (build : BuildFile) (k : DirectoryStore) : Partner Session where
  log l s := s.log l
  advisor := match o.onConflict with
    | some a => .constant (.always a)
    | none => conflictAdvisor k
  alternative := none
  hasFeature f s := (build.has f, s)
  confirmConcerns cs s :=
    let s := s.tell (.doubtful (cs.map (·.message)))
    if o.yes then (true, s) else s.confirm "Continue despite warnings?"
  confirmMissing r s :=
    let s := s.tell (.missingFeatures (r.missing.map (·.name)) (Snippet.maven r.missing)
      (Snippet.gradle (build.kind = .gradleKotlin) r.missing))
    if o.yes then (true, s) else s.confirm "Generate anyway?"

/-- Shows why a run did not succeed. Gives the exit code. -/
def showReport (r : RunReport) : Program Nat := do
  match r.status, r.failure with
  | .ok, _ => return 0
  | .invalid, _ => tell (.defective (r.defects.map (·.message)))
  | _, some f => tell (.unwritable f.cause.detail (f.cause.id.className ++ ".java"))
  | _, none => pure ()
  return failure

/-- Runs one class through generation. -/
def generateOne (o : GenerateOptions) (build : BuildFile) (p : Settings) (k : DirectoryStore)
    (c : SourceClass) : Program (RunReport × DirectoryStore) := do
  let desk ← get
  let (result, k, session) := (partner o build k).run .standard c p k desk.session
  set { desk with tree := k.tree, session := session }
  -- what the run did after a question without an answer is not seen
  if session.ended then throw (.fault .endOfInput)
  match result with
  | .ok report => return (report, k)
  | .error (.braces e) => throw (.fault (.braces e))
  | .error (.template e) => throw (.fault (.template e))
  | .error e => complain failure e.message

/-- Runs classes one after the other. Gives the number of files that are written, and the exit
code. -/
def generateEach (o : GenerateOptions) (build : BuildFile) (p : Settings) :
    DirectoryStore → List SourceClass → Program (Nat × Nat)
  | _, [] => return (0, 0)
  | k, c :: rest => do
    say ""
    let (report, k) ← generateOne o build p k c
    let code ← showReport report
    let (total, restCode) ← generateEach o build p k rest
    return (report.written.length + total, max code restCode)

/-! ## Commands -/

/-- Lists the entities of a project. -/
def entities (root : String) : Program Nat := do
  let root ← projectRoot root
  match (← sources root).entities with
  | [] =>
    log .warning "No @Entity found."
    return failure
  | found =>
    display (entityTable root found)
    return 0

/-- Shows the artifacts of a class, each with its path and its content. -/
def showArtifacts (p : Settings) (c : SourceClass) : Program Nat := do
  match Entity.ofClass? .standard c with
  | none => complain failure (RunFault.notAnEntity c.qualifiedName).message
  | some m =>
    for a in ← orFault .braces (Artifact.all m p) do
      display (.rule (a.layer.label ++ ": " ++ a.filePath))
      display (.code "java" (markedText a.text))
    return 0

/-- Shows what would be generated for an entity. -/
def preview (root entity : String) (o : SettingsOptions) : Program Nat := do
  let root ← projectRoot root
  let p ← settings root o
  let c ← classNamed (← sources root) entity
  showArtifacts p c

/-- The classes that are generated for: those named, or all entities. -/
def selection (catalog : SourceCatalog) (o : GenerateOptions) : Program (List SourceClass) :=
  match nameList o.entities with
  -- nobody is asked which entities are meant, so all are
  | [] => return catalog.entities
  | names => if o.all then return catalog.entities else names.mapM (classNamed catalog)

/-- Generates and writes the artifacts of entities. -/
def generate (root : String) (po : SettingsOptions) (o : GenerateOptions) : Program Nat := do
  let root ← projectRoot root
  let p ← settings root po
  let selected ← selection (← sources root) o
  if selected.isEmpty then
    log .warning "Nothing selected."
    return failure
  else
    let build ← orFault .unreadable (BuildFile.ofProject (← files) root)
    let target ← sourceRoot root o.sourceRoot
    say ("\nSource root: " ++ target.toString)
    say ("Selected entities: " ++ Text.join ", " (selected.map (·.name)))
    let k : DirectoryStore := { tree := ← files, root := target, dryRun := o.dryRun }
    let (total, code) ← generateEach o build p k selected
    if code = 0 then tell (.finished total)
    if o.dryRun then say "[dim]Dry run: nothing was written.[/]"
    return code

/-- The format for the build file of a project. -/
def formatFor : BuildKind → SnippetFormat
  | .gradleKotlin => .kotlin
  | .gradleGroovy => .gradle
  | .maven | .unknown => .maven

/-- The snippet that adds features. -/
def snippet (missing : List Feature) : SnippetFormat → ConsoleEvent
  | .maven => .code "xml" (Snippet.maven missing)
  | .gradle => .code "groovy" (Snippet.gradle false missing)
  | .kotlin => .code "kotlin" (Snippet.gradle true missing)

/-- A row of the table of features. -/
def featureRow (r : FeatureReport) (f : Feature) : List String :=
  [f.name, if f ∈ r.missing then "[red]missing[/]" else "[green]present[/]"]

/-- Reports the features that a project misses. -/
def features (root : String) (po : SettingsOptions) (format : Option SnippetFormat) :
    Program Nat := do
  let root ← projectRoot root
  let p ← settings root po
  let build ← orFault .unreadable (BuildFile.ofProject (← files) root)
  let report := FeatureReport.ofSettings build.has p
  display (.table ("Dependencies (" ++ build.kind.name ++ ")") ["Feature", "Status"]
    (report.checked.map (featureRow report)))
  if report.isOk then return 0
  else
    display (snippet report.missing (format.getD (formatFor build.kind)))
    return failure

/-- Does what is asked for. -/
def ofRequest : Request → Program Nat
  | .entities root => entities root
  | .preview root entity o => preview root entity o
  | .generate root po o => generate root po o
  | .features root po format => features root po format

/-- Runs a program to its end. A complaint is shown. -/
def finish (program : Program Nat) (d : Desk) : Outcome × Desk :=
  match program.run.run d with
  | (.ok code, d) => (.finished code, d)
  | (.error (.complaint code text), d) =>
    (.finished code, { d with session := d.session.log ⟨.error, text⟩ })
  | (.error (.fault e), d) => (.broken e, d)

/-- Does what a command line asks for. -/
def ofWords (words : List String) (d : Desk) : Outcome × Desk :=
  match Request.ofWords words with
  | .error stop => (.stopped stop, d)
  | .ok request => (ofRequest request).finish d

end Program

end EntityScaffold
