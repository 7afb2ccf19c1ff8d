import EntityScaffold.Settings.Basic
import EntityScaffold.Json.Reader

/-!
# Settings documents

A JSON document changes the settings it names and leaves the others as they are. It may name only
known settings, each with a value of the right type; the first fault is reported.
-/

namespace EntityScaffold

/-- The types that settings have. -/
inductive SettingType
  | flag
  | text
  deriving DecidableEq, Repr

/-- The name of a setting's type in messages. -/
def SettingType.name : SettingType → String
  | flag => "bool"
  | text => "str"

/-- What is wrong with a document of settings. -/
inductive SettingsFault
  | notAnObject
  | unknownKeys (keys : List String)
  | wrongType (key : String) (expected : SettingType) (found : Json)
  | artifactsNotAnObject
  | unknownArtifact (name : String)
  | artifactNotAnObject (name : String)
  | unknownArtifactKeys (name : String) (keys : List String)
  | misreading (complaint : Json.Complaint) (line : Nat)

/-- The words for what is wrong. -/
def SettingsFault.message : SettingsFault → String
  | notAnObject => "config must be a JSON object"
  | unknownKeys keys => "unknown config key(s): " ++ Text.join ", " keys
  | wrongType key expected found =>
    key ++ " must be " ++ expected.name ++ ", got " ++ found.kindName
  | artifactsNotAnObject => "'artifacts' must be an object"
  | unknownArtifact name => "unknown artifact: " ++ name
  | artifactNotAnObject name => "artifacts." ++ name ++ " must be an object"
  | unknownArtifactKeys name keys =>
    "unknown key(s) in artifacts." ++ name ++ ": " ++ Text.join ", " keys
  | misreading complaint line =>
    "invalid JSON (" ++ complaint.message ++ " at line " ++ toString line ++ ")"

namespace Settings

/-- A flag, or the fault that the value is none. -/
def flag (key : String) : Json → Except SettingsFault Bool
  | .bool b => .ok b
  | found => .error (.wrongType key .flag found)

/-- A text, or the fault that the value is none. -/
def text (key : String) : Json → Except SettingsFault String
  | .string s => .ok s
  | found => .error (.wrongType key .text found)

/-- The value of a member, or else a value that is there already. -/
def member {α : Type} (read : String → Json → Except SettingsFault α) (data : Json) (key : String)
    (otherwise : α) : Except SettingsFault α :=
  match data.get? key with
  | some v => read key v
  | none => .ok otherwise

/-- Keys of the settings that are not about one layer. -/
def scalarKeys : List String :=
  ["base_package", "use_accessor_annotation_style", "repository_query_methods", "api_prefix",
   "overwrite_existing"]

/-- Keys of the settings of one layer. -/
def artifactKeys : List String := ["enabled", "class_name_suffix", "sub_package"]

/-- Keys that are not known, in order. -/
def unknown (known : List String) (members : List (String × Json)) : List String :=
  Text.sorted ((members.map (·.1)).filter (· ∉ known))

/-- The settings that are not about one layer, in their fixed order. -/
def readScalars (p : Settings) (data : Json) : Except SettingsFault Settings := do
  let basePackage ← member text data "base_package" p.basePackage
  let accessorStyle ← member flag data "use_accessor_annotation_style" p.accessorStyle
  let queryMethods ← member flag data "repository_query_methods" p.queryMethods
  let apiPrefix ← member text data "api_prefix" p.apiPrefix
  let overwrite ← member flag data "overwrite_existing" p.overwrite
  return { p with basePackage, accessorStyle, queryMethods, apiPrefix, overwrite }

/-- One setting of an artifact. -/
def readArtifactSetting (name : String) (a : LayerSettings) (key : String) (v : Json) :
    Except SettingsFault LayerSettings := do
  let full := "artifacts." ++ name ++ "." ++ key
  match key with
  | "enabled" => return { a with enabled := ← flag full v }
  | "class_name_suffix" => return { a with suffix := ← text full v }
  | _ => return { a with subPackage := ← text full v }

/-- The settings of an artifact, in the order of the document. -/
def readArtifactSettings (name : String) (a : LayerSettings) (members : List (String × Json)) :
    Except SettingsFault LayerSettings :=
  members.foldlM (fun a m => readArtifactSetting name a m.1 m.2) a

/-- The settings of one named artifact. -/
def readArtifact (p : Settings) (name : String) (v : Json) : Except SettingsFault Settings :=
  match Layer.ofKey? name with
  | none => .error (.unknownArtifact name)
  | some k =>
    match v with
    | .object members =>
      match unknown artifactKeys members with
      | [] => (readArtifactSettings name (p.layer k) members).map (p.withLayer k)
      | keys => .error (.unknownArtifactKeys name keys)
    | _ => .error (.artifactNotAnObject name)

/-- The settings of the artifacts, in the order of the document. -/
def readArtifacts (p : Settings) (data : Json) : Except SettingsFault Settings :=
  match data.get? "artifacts" with
  | none => .ok p
  | some (.object members) => members.foldlM (fun p m => readArtifact p m.1 m.2) p
  | some _ => .error .artifactsNotAnObject

/-- The settings with the changes of a document. -/
def ofDocument (base : Settings) (data : Json) : Except SettingsFault Settings :=
  match data with
  | .object members =>
    match unknown ("artifacts" :: scalarKeys) members with
    | [] => do readArtifacts (← readScalars base data) data
    | keys => .error (.unknownKeys keys)
  | _ => .error .notAnObject

/-- The settings with the changes of a document's text. -/
def ofText (base : Settings) (content : String) : Except SettingsFault Settings :=
  match Json.read content with
  | .error m => .error (.misreading m.complaint (m.line content))
  | .ok data => ofDocument base data

/-- The settings of one layer as a document. -/
def artifactDocument (a : LayerSettings) : Json :=
  .object [("enabled", .bool a.enabled), ("class_name_suffix", .string a.suffix),
    ("sub_package", .string a.subPackage)]

/-- All settings as a document. -/
def toDocument (p : Settings) : Json :=
  .object [("base_package", .string p.basePackage),
    ("use_accessor_annotation_style", .bool p.accessorStyle),
    ("repository_query_methods", .bool p.queryMethods),
    ("api_prefix", .string p.apiPrefix),
    ("overwrite_existing", .bool p.overwrite),
    ("artifacts", .object (Layer.all.map fun k => (k.key, artifactDocument (p.layer k))))]

end Settings

end EntityScaffold
