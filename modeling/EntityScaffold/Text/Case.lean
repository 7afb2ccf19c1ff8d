import EntityScaffold.Text.Case.Table

/-!
# Upper and lower case

Full case mappings: one character may become several. The lower case of a capital sigma depends on
its place: it is the final form where a cased character stands before it and none after it, with
ignorable characters passed over on both sides.
-/

namespace EntityScaffold.Text

namespace Case

/-- The image of a character under a simple and a full mapping. -/
def map (runs : List Run) (full : List (Nat × List Nat)) (c : Char) : List Char :=
  match runs.findSome? (·.map? c.toNat) with
  | some n => [Char.ofNat n]
  | none =>
    match full.lookup c.toNat with
    | some ns => ns.map Char.ofNat
    | none => [c]

/-- The first character that is not passed over has a case. -/
def casedAhead (s : List Char) : Bool :=
  match s.dropWhile fun c => ignorableRanges.holds c.toNat with
  | [] => false
  | c :: _ => casedRanges.holds c.toNat

/-- Lower case of the second text, which the reversed first one stands before. -/
def lowerAfter (before : List Char) : List Char → List Char
  | [] => []
  | c :: rest =>
    (if c = 'Σ' then [if casedAhead before && !casedAhead rest then 'ς' else 'σ']
      else map lowerRuns lowerFull c) ++ lowerAfter (c :: before) rest

end Case

/-- Upper case of one character. -/
def upperChar (c : Char) : List Char := Case.map Case.upperRuns Case.upperFull c

/-- Lower case of a text. -/
def lower (s : List Char) : List Char := Case.lowerAfter [] s

/-- Upper case of a text. -/
def upper (s : List Char) : List Char := s.flatMap upperChar

/-- The string in lower case. -/
def toLower (s : String) : String := String.ofList (lower s.toList)

end EntityScaffold.Text
