import EntityScaffold.Generation.Notice

/-!
# What a console shows

Everything a command shows to people is an event. How events are drawn is left to whoever draws
them; colors and markup are named and not resolved.
-/

namespace EntityScaffold

/-- Something that a console shows. -/
inductive ConsoleEvent
  /-- A log line, in the style of its level. -/
  | log (line : LogLine)
  /-- A text with markup. -/
  | say (text : String)
  | table (title : String) (headers : List String) (rows : List (List String))
  | panel (title body color : String)
  /-- Code in a language. -/
  | code (language text : String)
  /-- A line across the console with a title. -/
  | rule (title : String)
  /-- A question that waits for an answer. -/
  | question (text : String)
  /-- The refusal of an answer. -/
  | refusal (text : String)
  deriving DecidableEq, Repr

/-- The style of log lines of a level. -/
def LogLevel.style : LogLevel → String
  | info => "cyan"
  | warning => "yellow"
  | error => "bold red"
  | skip => "dim"
  | write => "green"
  | rename => "magenta"

/-- The color of the frame around notices of a level. -/
def NoticeLevel.color : NoticeLevel → String
  | info => "cyan"
  | warning => "yellow"
  | error => "red"

namespace Notice

/-- The title of the panel that shows a notice. -/
def panelTitle (m : Notice) : String := m.title ++ " (" ++ m.code ++ ")"

/-- What the panel that shows a notice holds. -/
def panelBody (m : Notice) : String :=
  if m.suggestions.isEmpty then m.description
  else m.description ++ "\n\n" ++ Text.join "\n" (m.suggestions.map ("* " ++ ·))

/-- The event that shows a notice. -/
def event (m : Notice) : ConsoleEvent := .panel m.panelTitle m.panelBody m.level.color

end Notice

end EntityScaffold
