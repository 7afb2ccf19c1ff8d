import EntityScaffold.Json.Value
import EntityScaffold.Java.Escape

/-!
# Reading JSON

A text is read as one value with blanks around it. A fault tells what was expected and where: its
place is given by the text that follows it. Besides the standard's values, `NaN` and the two
infinities are numbers; a byte order mark is not skipped.
-/

namespace EntityScaffold.Json

/-- What is wrong at a place of a text. -/
inductive Complaint
  | value
  | propertyName
  | colon
  | comma
  | extraData
  | unterminatedString
  | controlCharacter
  | escape
  | unicodeEscape
  | byteOrderMark
  deriving DecidableEq, Repr

/-- The words for what is wrong. -/
def Complaint.message : Complaint → String
  | value => "Expecting value"
  | propertyName => "Expecting property name enclosed in double quotes"
  | colon => "Expecting ':' delimiter"
  | comma => "Expecting ',' delimiter"
  | extraData => "Extra data"
  | unterminatedString => "Unterminated string starting at"
  | controlCharacter => "Invalid control character at"
  | escape => "Invalid \\escape"
  | unicodeEscape => "Invalid \\uXXXX escape"
  | byteOrderMark => "Unexpected UTF-8 BOM (decode using utf-8-sig)"

/-- A complaint and the text from its place on. -/
structure Misreading where
  complaint : Complaint
  rest : List Char

/-- A reader of the front of a text. -/
abbrev Reading (α : Type) := Except Misreading (α × List Char)

/-- A complaint about the front of a text. -/
def complain {α : Type} (complaint : Complaint) (rest : List Char) : Except Misreading α :=
  .error ⟨complaint, rest⟩

/-- Blanks between the parts of a value. -/
def isGap (c : Char) : Bool := c == ' ' || c == '\t' || c == '\n' || c == '\r'

/-- The text after the blanks it starts with. -/
def skip (s : List Char) : List Char := s.dropWhile isGap

/-- The value of a hexadecimal digit. -/
def hexDigit? (c : Char) : Option Nat :=
  if c.isDigit then some (c.toNat - '0'.toNat)
  else if 'a' ≤ c ∧ c ≤ 'f' then some (c.toNat - 'a'.toNat + 10)
  else if 'A' ≤ c ∧ c ≤ 'F' then some (c.toNat - 'A'.toNat + 10)
  else none

/-- What the character after a backslash stands for. -/
def escaped? : Char → Option Char
  | '"' => some '"'
  | '\\' => some '\\'
  | '/' => some '/'
  | 'b' => some '\x08'
  | 'f' => some '\x0c'
  | 'n' => some '\n'
  | 'r' => some '\r'
  | 't' => some '\t'
  | _ => none

/-- The UTF-16 unit that four hexadecimal digits spell. Another character must follow them. -/
def unit? : List Char → Option (Nat × List Char)
  | a :: b :: c :: d :: e :: rest => do
    let n := (((← hexDigit? a) * 16 + (← hexDigit? b)) * 16 + (← hexDigit? c)) * 16 + (← hexDigit? d)
    return (n, e :: rest)
  | _ => none

theorem length_lt_of_unit? {s rest : List Char} {n : Nat} (h : unit? s = some (n, rest)) :
    rest.length < s.length := by
  unfold unit? at h
  split at h
  · simp only [Option.pure_def, Option.bind_eq_bind, Option.bind_eq_some_iff,
      Option.some.injEq, Prod.mk.injEq] at h
    obtain ⟨_, _, _, _, _, _, _, _, _, rfl⟩ := h
    simp only [List.length_cons]; omega
  · simp at h

/-- The units of a string after its opening quote, where `start` is the text from that quote on. -/
def stringUnits (start : List Char) (s : List Char) : Reading (List Nat) :=
  match s with
  | [] => complain .unterminatedString start
  | '"' :: rest => .ok ([], rest)
  | '\\' :: [] => complain .unterminatedString start
  | '\\' :: 'u' :: rest =>
    match _h : unit? rest with
    | none => complain .unicodeEscape rest
    | some (n, rest) =>
      (stringUnits start rest).map fun r => (n :: r.1, r.2)
  | '\\' :: c :: rest =>
    match escaped? c with
    | none => complain .escape s
    | some e => (stringUnits start rest).map fun r => (e.toNat :: r.1, r.2)
  | c :: rest =>
    if c.toNat < 0x20 then complain .controlCharacter s
    else (stringUnits start rest).map fun r => (c.toNat :: r.1, r.2)
termination_by s.length
decreasing_by
  · have := length_lt_of_unit? _h
    simp only [List.length_cons]; omega
  · simp only [List.length_cons]; omega
  · simp

/-- A string after its opening quote. -/
def stringAfterQuote (rest : List Char) : Reading String :=
  (stringUnits ('"' :: rest) rest).map fun r =>
    (String.ofList (Java.Escape.characters r.1), r.2)

/-- Digits and what follows them. -/
def digits (s : List Char) : List Char × List Char := (s.takeWhile Char.isDigit, s.dropWhile Char.isDigit)

/-- A fraction, if a dot and a digit are next. -/
def fraction (s : List Char) : List Char × List Char :=
  match s with
  | '.' :: d :: rest =>
    if d.isDigit then
      let (ds, rest) := digits (d :: rest)
      ('.' :: ds, rest)
    else ([], s)
  | _ => ([], s)

/-- An exponent, if a mark, perhaps a sign, and a digit are next. -/
def exponent (s : List Char) : List Char × List Char :=
  match s with
  | e :: rest =>
    if e = 'e' ∨ e = 'E' then
      let (sign, rest) : List Char × List Char :=
        match rest with
        | '+' :: r => (['+'], r)
        | '-' :: r => (['-'], r)
        | r => ([], r)
      match digits rest with
      | ([], _) => ([], s)
      | (ds, rest) => (e :: sign ++ ds, rest)
    else ([], s)
  | [] => ([], s)

/-- The number that decimal digits spell. -/
def natural (ds : List Char) : Nat := ds.foldl (fun n d => n * 10 + (d.toNat - '0'.toNat)) 0

/-- The digits of a whole number: a zero, or digits that start with no zero. -/
def wholeDigits (s : List Char) : Option (List Char × List Char) :=
  match s with
  | '0' :: rest => some (['0'], rest)
  | d :: _ => if d.isDigit then some (digits s) else none
  | [] => none

/-- A number. -/
def number? (s : List Char) : Option (Json × List Char) := do
  let (negative, unsigned) : Bool × List Char :=
    match s with
    | '-' :: rest => (true, rest)
    | _ => (false, s)
  let (ds, rest) ← wholeDigits unsigned
  let (fraction, rest) := fraction rest
  let (exponent, rest) := exponent rest
  if fraction.isEmpty && exponent.isEmpty then
    return (.whole (if negative then -(natural ds : Int) else natural ds), rest)
  else
    let sign := if negative then ['-'] else []
    return (.decimal (.ofList (sign ++ ds ++ fraction ++ exponent)), rest)

/-- Words that are values. -/
def wordValues : List (String × Json) :=
  [("null", .null), ("true", .bool true), ("false", .bool false), ("NaN", .decimal "NaN"),
   ("Infinity", .decimal "Infinity"), ("-Infinity", .decimal "-Infinity")]

/-- A value that contains no other one. -/
def scalar (s : List Char) : Reading Json :=
  match wordValues.find? fun w => w.1.toList.isPrefixOf s with
  | some (word, v) => .ok (v, s.drop word.length)
  | none =>
    match number? s with
    | some r => .ok r
    | none => complain .value s

mutual

/-- A value, nested at most so deep. -/
def value : Nat → List Char → Reading Json
  | 0, s => complain .value s
  | n + 1, s =>
    match s with
    | '"' :: rest => (stringAfterQuote rest).map fun r => (.string r.1, r.2)
    | '{' :: rest =>
      match skip rest with
      | '}' :: rest => .ok (.object [], rest)
      | rest => members n [] rest
    | '[' :: rest =>
      match skip rest with
      | ']' :: rest => .ok (.array [], rest)
      | rest => (items n rest).map fun r => (.array r.1, r.2)
    | _ => scalar s

/-- The members of an object after those that are read, up to its end. -/
def members : Nat → List (String × Json) → List Char → Except Misreading (Json × List Char)
  | 0, _, s => complain .value s
  | n + 1, read, s =>
    match s with
    | '"' :: rest => do
      let (name, rest) ← stringAfterQuote rest
      match skip rest with
      | ':' :: rest =>
        let (v, rest) ← value n (skip rest)
        let read := put read name v
        match skip rest with
        | '}' :: rest => .ok (.object read, rest)
        | ',' :: rest => members n read (skip rest)
        | rest => complain .comma rest
      | rest => complain .colon rest
    | _ => complain .propertyName s

/-- The items of an array, up to its end. -/
def items : Nat → List Char → Except Misreading (List Json × List Char)
  | 0, s => complain .value s
  | n + 1, s => do
    let (v, rest) ← value n s
    match skip rest with
    | ']' :: rest => .ok ([v], rest)
    | ',' :: rest =>
      let (vs, rest) ← items n (skip rest)
      return (v :: vs, rest)
    | rest => complain .comma rest

end

/-- Reads a text as one value. A value has fewer levels, members and items than the text has
characters. -/
def read (text : String) : Except Misreading Json :=
  let s := text.toList
  if s.head? = some '\ufeff' then complain .byteOrderMark s
  else do
    let (v, rest) ← value (2 * s.length + 2) (skip s)
    match skip rest with
    | [] => .ok v
    | rest => complain .extraData rest

/-- The number of the line that a misreading of a text is on. -/
def Misreading.line (m : Misreading) (text : String) : Nat :=
  1 + (text.toList.count '\n' - m.rest.count '\n')

end EntityScaffold.Json
