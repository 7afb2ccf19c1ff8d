import EntityScaffold.Text.Category
import EntityScaffold.Text.Cut

/-!
# Words of a command line

A command takes options only. An option is named in full or by a prefix that no other option of the
command has, and its value is the next word or stands behind an equals sign. A word is told apart
before any is used:

* after a word of two dashes every word is an operand, and so is one without a dash in front, a lone
  dash, a negative number, and what holds a blank but names no option;
* a word of one dash and letters asks for help if all its letters do;
* any other word with a dash in front is unknown unless it names an option.

Words are then used in order, so that a request for help counts unless something before it is wrong.
-/

namespace EntityScaffold

/-- What an option takes. -/
inductive OptionKind
  | help
  | flag
  | value
  deriving DecidableEq, Repr

/-- An option of a command. -/
structure OptionSpec where
  name : String
  kind : OptionKind
  /-- The values that are allowed; none stands for all. -/
  choices : List String := []
  required : Bool := false
  /-- Only one such option may be given. -/
  exclusive : Bool := false
  deriving DecidableEq, Repr

/-- Why a command line leads to no command. -/
inductive UsageStop
  | help
  | misuse
  deriving DecidableEq, Repr

/-- The exit code of a command line that leads to no command. -/
def UsageStop.exitCode : UsageStop → Nat
  | help => 0
  | misuse => 2

/-- A word of a command line. -/
inductive Word
  | operand (text : String)
  /-- Two dashes, after which there are operands only. -/
  | separator
  /-- An option, with a value behind an equals sign. -/
  | option (spec : OptionSpec) (value : Option String)
  | unknown
  deriving DecidableEq, Repr

namespace Word

/-- The text is a number below zero. -/
def isNegativeNumber (s : List Char) : Bool :=
  let isDigit (c : Char) : Bool := (Text.digitValue? c).isSome
  match s with
  | '-' :: rest =>
    match Text.cutFirst '.' rest with
    | none => !rest.isEmpty && rest.all isDigit
    | some (whole, fraction) => whole.all isDigit && !fraction.isEmpty && fraction.all isDigit
  | _ => false

/-- A word that is no option's name. -/
def plain (text : String) : Word :=
  let s := text.toList
  if isNegativeNumber s || ' ' ∈ s then .operand text else .unknown

/-- The name and the value that a text with an equals sign holds. -/
def assignment (text : String) : String × Option String :=
  match Text.cutFirst '=' text.toList with
  | some (name, value) => (.ofList name, some (.ofList value))
  | none => (text, none)

/-- The option that asks for help in one letter. -/
def shortHelp : OptionSpec := ⟨"-h", .help, [], false, false⟩

/-- The option that asks for help. -/
def longHelp : OptionSpec := ⟨"--help", .help, [], false, false⟩

/-- The letter that asks for help, with more letters behind it. -/
def helpLetters (others : List Char) : Word :=
  .option shortHelp
    (if !others.isEmpty && others.all (· == 'h') then none else some (.ofList others))

/-- A word that starts with two dashes, by the options whose name it starts. -/
def abbreviation (specs : List OptionSpec) (text : String) : Except UsageStop Word :=
  let (name, value) := assignment text
  match specs.filter fun o => Text.startsWith o.name name with
  | [] => .ok (plain text)
  | [o] => .ok (.option o value)
  | _ => .error .misuse

/-- A word by the options of a command. -/
def classify (specs : List OptionSpec) (text : String) : Except UsageStop Word :=
  match text.toList with
  | '-' :: second :: others =>
    let (name, value) := assignment text
    match specs.find? (·.name == text), specs.find? (·.name == name), value with
    | some o, _, _ => .ok (.option o none)
    | none, some o, some v =>
      .ok (if o = shortHelp then helpLetters v.toList else .option o (some v))
    | _, _, _ =>
      -- no name in full
      if second = '-' then abbreviation specs text
      else if second = 'h' then .ok (helpLetters others)
      else .ok (plain text)
  | _ => .ok (.operand text)

/-- All words of a command line. -/
def classifyAll (specs : List OptionSpec) : List String → Except UsageStop (List Word)
  | [] => .ok []
  | text :: rest =>
    if text = "--" then .ok (.separator :: rest.map .operand)
    else do
      let w ← classify specs text
      return w :: (← classifyAll specs rest)

end Word

/-- The options that a command line gives. -/
structure GivenOptions where
  /-- Options with their values, in order; flags have an empty one. -/
  options : List (String × String) := []
  /-- There are words that no option takes. -/
  surplus : Bool := false
  deriving DecidableEq, Repr

namespace GivenOptions

/-- The last value that is given for an option. -/
def value? (g : GivenOptions) (name : String) : Option String := g.options.reverse.lookup name

def has (g : GivenOptions) (name : String) : Bool := (g.value? name).isSome

/-- The options with one more. Of exclusive options only one may be given, though more than once. -/
def give (specs : List OptionSpec) (g : GivenOptions) (o : OptionSpec) (value : String) :
    Except UsageStop GivenOptions :=
  if o.exclusive && specs.any fun other => other.exclusive && other != o && g.has other.name then
    .error .misuse
  else if !o.choices.isEmpty && value ∉ o.choices then .error .misuse
  else .ok { g with options := g.options ++ [(o.name, value)] }

/-- Uses words in order. -/
def read (specs : List OptionSpec) (g : GivenOptions) : List Word → Except UsageStop GivenOptions
  | [] => .ok g
  | .option o value :: rest =>
    match o.kind, value, rest with
    | .help, none, _ => .error .help
    | .flag, none, rest => do read specs (← g.give specs o "") rest
    | .value, some v, rest => do read specs (← g.give specs o v) rest
    | .value, none, .operand v :: rest => do read specs (← g.give specs o v) rest
    | _, _, _ => .error .misuse
  | _ :: rest => read specs { g with surplus := true } rest

/-- The options of a command line, all that are required among them. -/
def ofWords (specs : List OptionSpec) (words : List String) : Except UsageStop GivenOptions := do
  let all := Word.shortHelp :: Word.longHelp :: specs
  let g ← read all {} (← Word.classifyAll all words)
  if g.surplus || specs.any fun o => o.required && !g.has o.name then .error .misuse else return g

end GivenOptions

end EntityScaffold
