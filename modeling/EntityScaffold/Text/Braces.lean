import EntityScaffold.Text.Category

/-!
# Texts with fields

In a text with fields a single brace starts or ends a field, and a double one stands for a brace.
`literal` reads a text that stands in front of one field without a name: the text may hold no field
of its own, because only one argument is there to fill the field behind it.
-/

namespace EntityScaffold.Text.Braces

/-- What is wrong with a text in front of a field. -/
inductive Fault
  /-- A brace without its partner, or two ways to number fields. -/
  | malformed
  /-- A field for which no argument is left. -/
  | noArgument
  /-- A field that calls its argument by a name. -/
  | noSuchName
  deriving DecidableEq, Repr

/-- How fields have been numbered so far. -/
inductive Numbering
  | none
  | automatic
  | manual
  deriving DecidableEq

/-- The name of a field, what ended it, and the rest of the text. -/
def fieldName : List Char → Option (List Char × Char × List Char)
  | [] => none
  | c :: rest =>
    if c = '{' then none
    else if c = '}' ∨ c = ':' ∨ c = '!' then some ([], c, rest)
    else (fieldName rest).map fun (name, stop, rest) => (c :: name, stop, rest)

/-- The rest of the text after a field whose name has ended. -/
def afterField : Nat → List Char → Option (List Char)
  | _, [] => none
  | depth, c :: rest =>
    if c = '{' then afterField (depth + 1) rest
    else if c = '}' then
      match depth with
      | 0 => some rest
      | depth + 1 => afterField depth rest
    else afterField depth rest

/-- The argument that a field's name calls for: none for the empty name. -/
def argument (name : List Char) : Except Fault (Option Nat) :=
  let called := name.takeWhile fun c => c != '.' && c != '['
  if called.isEmpty then .ok none
  else
    match called.mapM digitValue? with
    | none => .error .noSuchName
    | some ds => .ok (some (ds.foldl (fun n d => n * 10 + d) 0))

/-- The way of numbering after one more field. -/
def number (name : List Char) (before : Numbering) : Except Fault Numbering := do
  match ← argument name, before with
  | none, .none => .ok .automatic
  | none, .automatic => .error .noArgument
  | none, .manual => .error .malformed
  | some _, .automatic => .error .malformed
  | some 0, _ => .ok .manual
  | some _, _ => .error .noArgument

/-- Reads a text in at most so many steps. -/
def literalSteps : Nat → Numbering → List Char → Except Fault (List Char)
  | _, .none, [] => .ok []
  | _, .automatic, [] => .error .noArgument
  | _, .manual, [] => .error .malformed
  | 0, _, _ :: _ => .error .malformed
  | n + 1, numbering, c :: rest =>
    match c, rest with
    | '{', '{' :: rest => (literalSteps n numbering rest).map ('{' :: ·)
    | '}', '}' :: rest => (literalSteps n numbering rest).map ('}' :: ·)
    | '}', _ => .error .malformed
    | '{', rest =>
      match fieldName rest with
      | none => .error .malformed
      | some (name, stop, rest) => do
        match if stop = '}' then some rest else afterField 0 rest with
        | none => .error .malformed
        | some rest => literalSteps n (← number name numbering) rest
    | c, rest => (literalSteps n numbering rest).map (c :: ·)

/-- The text in front of a field, with single braces for double ones. -/
def literal (s : String) : Except Fault String :=
  (literalSteps s.toList.length .none s.toList).map String.ofList

end EntityScaffold.Text.Braces
