import EntityScaffold.Command.Words
import EntityScaffold.Conflict.Answer

/-!
# Requests

What a command line asks for: one of four commands, with the options that the command knows. The
name of the command comes before its options, and nothing but a request for help before the name.
-/

namespace EntityScaffold

/-- Options that change the settings of a project. -/
structure SettingsOptions where
  /-- The file of the settings. -/
  config : Option String
  basePackage : Option String
  apiPrefix : Option String
  /-- Accessors of transfer objects are written out. -/
  noLombok : Bool
  /-- Repositories get no queries. -/
  noQueryMethods : Bool
  /-- Layers that are not generated, with commas between them. -/
  skip : String
  /-- Existing files are overwritten without a question. -/
  overwrite : Bool
  deriving DecidableEq, Repr, Inhabited

/-- How snippets are written. -/
inductive SnippetFormat
  | maven
  | gradle
  | kotlin
  deriving DecidableEq, Repr, Inhabited

/-- The options of a generation. -/
structure GenerateOptions where
  /-- Names of entities, with commas between them. -/
  entities : String
  /-- All entities are meant. -/
  all : Bool
  sourceRoot : Option String
  /-- What is done in conflicts, if nobody is asked. -/
  onConflict : Option ConflictAction
  /-- Nobody is asked to confirm anything. -/
  yes : Bool
  dryRun : Bool
  deriving DecidableEq, Repr, Inhabited

/-- What a command line asks for. -/
inductive Request
  /-- Lists the entities of a project. -/
  | entities (root : String)
  /-- Shows what would be generated for an entity. -/
  | preview (root entity : String) (settings : SettingsOptions)
  /-- Generates and writes artifacts. -/
  | generate (root : String) (settings : SettingsOptions) (options : GenerateOptions)
  /-- Reports the features that a project misses. -/
  | features (root : String) (settings : SettingsOptions) (format : Option SnippetFormat)
  deriving DecidableEq, Repr

namespace Request

def required (name : String) : OptionSpec := ⟨name, .value, [], true, false⟩

def optional (name : String) : OptionSpec := ⟨name, .value, [], false, false⟩

def oneOf (name : String) (choices : List String) : OptionSpec :=
  ⟨name, .value, choices, false, false⟩

def flag (name : String) : OptionSpec := ⟨name, .flag, [], false, false⟩

def exclusiveFlag (name : String) : OptionSpec := ⟨name, .flag, [], false, true⟩

/-- Options that change the settings of a project. -/
def settingsSpecs : List OptionSpec :=
  [optional "--config", optional "--base-package", optional "--api-prefix", flag "--no-lombok",
   flag "--no-query-methods", optional "--skip"]

/-- Names of the commands, each with its options. -/
def commands : List (String × List OptionSpec) :=
  [("entities", [required "--root"]),
   ("preview", [required "--root", required "--entity"] ++ settingsSpecs),
   ("generate",
     [required "--root", optional "--entities", flag "--all"] ++ settingsSpecs ++
     [optional "--source-root", flag "--overwrite",
      oneOf "--on-conflict" ["ask", "write", "skip", "rename"], flag "--yes", flag "--dry-run"]),
   ("deps",
     [required "--root"] ++ settingsSpecs ++
     [exclusiveFlag "--maven", exclusiveFlag "--gradle", exclusiveFlag "--kts"])]

/-- The options among the given ones that change the settings. -/
def settingsOptions (g : GivenOptions) : SettingsOptions where
  config := g.value? "--config"
  basePackage := g.value? "--base-package"
  apiPrefix := g.value? "--api-prefix"
  noLombok := g.has "--no-lombok"
  noQueryMethods := g.has "--no-query-methods"
  skip := (g.value? "--skip").getD ""
  overwrite := g.has "--overwrite"

/-- The options of a generation among the given ones. -/
def generateOptions (g : GivenOptions) : GenerateOptions where
  entities := (g.value? "--entities").getD ""
  all := g.has "--all"
  sourceRoot := g.value? "--source-root"
  onConflict := (g.value? "--on-conflict").bind fun v => ConflictAction.all.find? (·.name == v)
  yes := g.has "--yes"
  dryRun := g.has "--dry-run"

/-- The snippet format among the given options. -/
def format? (g : GivenOptions) : Option SnippetFormat :=
  if g.has "--maven" then some .maven
  else if g.has "--kts" then some .kotlin
  else if g.has "--gradle" then some .gradle
  else none

/-- The request of a command with given options. -/
def ofOptions (command : String) (g : GivenOptions) : Request :=
  let root := (g.value? "--root").getD ""
  match command with
  | "entities" => entities root
  | "preview" => preview root ((g.value? "--entity").getD "") (settingsOptions g)
  | "generate" => generate root (settingsOptions g) (generateOptions g)
  | _ => features root (settingsOptions g) (format? g)

/-- The command that a command line names, its words, and whether there are unknown words before
it. -/
def command (surplus : Bool) : List String → Except UsageStop (String × List String × Bool)
  | [] => .error .misuse
  | text :: rest =>
    if text = "--" then .error .misuse
    else do
      match ← Word.classify [Word.shortHelp, Word.longHelp] text with
      | .operand name => return (name, rest, surplus)
      | .option _ none => .error .help
      | .option _ (some _) | .separator => .error .misuse
      | .unknown => command true rest

/-- The request of a command line. -/
def ofWords (words : List String) : Except UsageStop Request := do
  let (name, rest, surplus) ← command false words
  match commands.lookup name with
  | none => .error .misuse
  | some specs =>
    let g ← GivenOptions.ofWords specs rest
    if surplus then .error .misuse else return ofOptions name g

end Request

end EntityScaffold
