import EntityScaffold.Console.Event

/-!
# Plain drawing

Events as plain text, for consoles without colors. Markup is left out: what stands in square
brackets and starts with a lower case letter or a slash.
-/

namespace EntityScaffold.ConsoleEvent

/-- The text after a tag that the text after its opening bracket starts with. -/
def afterTag? (s : List Char) : Option (List Char) :=
  match s with
  | c :: _ =>
    if c.isLower || c = '/' then
      match s.dropWhile (· != ']') with
      | _ :: rest => some rest
      | [] => none
    else none
  | [] => none

/-- A text without its tags, in at most so many steps. -/
def withoutTags : Nat → List Char → List Char
  | 0, s => s
  | _, [] => []
  | n + 1, c :: rest =>
    if c = '[' then
      match afterTag? rest with
      | some rest => withoutTags n rest
      | none => c :: withoutTags n rest
    else c :: withoutTags n rest

/-- A text without its markup. -/
def plain (s : String) : String := String.ofList (withoutTags s.toList.length s.toList)

/-- The cells of a row. -/
def row (cells : List String) : String := Text.join " | " (cells.map plain)

/-- The text that draws an event. A question leaves its line open. -/
def plainText : ConsoleEvent → String
  | log l => l.line ++ "\n"
  | say text => plain text ++ "\n"
  | table title headers rows => Text.join "\n" (title :: row headers :: rows.map row) ++ "\n"
  | panel title body _ => "== " ++ title ++ " ==\n" ++ plain body ++ "\n"
  | code _ text => text ++ "\n"
  | rule title => "---- " ++ title ++ " ----\n"
  | question text => text
  | refusal text => plain text ++ "\n"

end EntityScaffold.ConsoleEvent
