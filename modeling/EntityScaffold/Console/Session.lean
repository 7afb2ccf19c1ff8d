import EntityScaffold.Console.Event

/-!
# Console sessions

A session shows events and reads answers from the lines that are typed. A question is asked again
until an answer is one of its choices. Where no line is left for a question the session ends, and an
ended session shows and reads nothing more.
-/

namespace EntityScaffold

/-- A question with its choices, one of which the empty line stands for. -/
structure Question where
  text : String
  choices : List String
  default : String
  /-- Answers may be in capitals. -/
  anyCase : Bool := false
  /-- The refusal of an answer that is no choice. -/
  complaint : String

namespace Question

/-- The words of a question. -/
def prompt (q : Question) : String :=
  q.text ++ " [" ++ Text.join "/" q.choices ++ "] (" ++ q.default ++ "): "

/-- The choice that a line is, if it is one. -/
def choice? (q : Question) (line : String) : Option String :=
  if line = "" then some q.default
  else
    let answer := Text.strip line
    q.choices.find? (· == if q.anyCase then Text.toLower answer else answer)

/-- Asks until a line is a choice. Gives what is shown, and the choice with the lines after it, or
nothing where the lines end. -/
def ask (q : Question) : List String → List ConsoleEvent × Option (String × List String)
  | [] => ([.question q.prompt], none)
  | line :: rest =>
    match q.choice? line with
    | some c => ([.question q.prompt], some (c, rest))
    | none =>
      let (shown, answer) := q.ask rest
      (.question q.prompt :: .refusal q.complaint :: shown, answer)

/-- A question that is answered by yes or no. -/
def yesOrNo (text : String) : Question where
  text := text
  choices := ["y", "n"]
  default := "n"
  anyCase := true
  complaint := "[prompt.invalid]Please enter Y or N"

end Question

/-- A session. -/
structure Session where
  /-- Lines that are typed but not yet read. -/
  lines : List String
  /-- What is shown so far. -/
  events : List ConsoleEvent := []
  /-- A question found no line. -/
  ended : Bool := false
  deriving Inhabited

namespace Session

/-- Shows an event. -/
def shown (s : Session) (e : ConsoleEvent) : Session :=
  if s.ended then s else { s with events := s.events ++ [e] }

/-- Shows a log line. -/
def log (s : Session) (l : LogLine) : Session := s.shown (.log l)

/-- Shows a notice. -/
def tell (s : Session) (m : Notice) : Session := s.shown m.event

/-- Asks a question. -/
def ask (s : Session) (q : Question) : Option String × Session :=
  if s.ended then (none, s)
  else
    match q.ask s.lines with
    | (shown, some (answer, rest)) =>
      (some answer, { s with lines := rest, events := s.events ++ shown })
    | (shown, none) => (none, { lines := [], events := s.events ++ shown, ended := true })

/-- Asks a question of yes or no. -/
def confirm (s : Session) (text : String) : Bool × Session :=
  let (answer, s) := s.ask (.yesOrNo text)
  (answer == some "y", s)

end Session

end EntityScaffold
