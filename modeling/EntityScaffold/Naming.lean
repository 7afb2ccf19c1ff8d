import EntityScaffold.Text.Case
import EntityScaffold.Text.Trim
import EntityScaffold.Text.Cut

/-!
# Names

How the names of generated code are made from those of an entity: capitals, plurals, routes, and
packages put together from parts.
-/

namespace EntityScaffold

namespace Naming

open Text

/-- The name with its first character in upper case. -/
def capitalize (s : String) : String :=
  match s.toList with
  | [] => s
  | c :: rest => String.ofList (upperChar c ++ rest)

/-- The name with its first character in lower case. -/
def decapitalize (s : String) : String :=
  match s.toList with
  | [] => s
  | c :: rest => String.ofList (lower [c] ++ rest)

/-- The lower case of the character is one of the five vowels. -/
def isVowel (c : Char) : Bool := lower [c] ∈ [['a'], ['e'], ['i'], ['o'], ['u']]

/-- The plural: a final y after a consonant becomes `ies`, a final s gets `es`. -/
def plural (name : String) : String :=
  match name.toList.reverse with
  | 'y' :: c :: rest =>
    if isVowel c then name ++ "s" else String.ofList (c :: rest).reverse ++ "ies"
  | 's' :: _ => name ++ "es"
  | _ => name ++ "s"

/-- The part of a path under which the entities of a name are found. -/
def route (name : String) : String := toLower (plural name)

end Naming

namespace Package

open Text

/-- A package part without dots around it. -/
def trimDots : String → String := stripOf (· == '.')

/-- A package from parts. Dots around a part do not count, and an empty part adds nothing. -/
def joinParts (parts : List String) : String :=
  join "." ((parts.map trimDots).filter (· != ""))

end Package

namespace ImportBlock

open Text

/-- The name after the word that starts an import line. -/
def afterKeyword (s : List Char) : List Char :=
  match dropStart? "import".toList (s.dropWhile isBlank) with
  | some (c :: rest) => if isBlank c then rest.dropWhile isBlank else s
  | _ => s

/-- What an item of an import block names: the item itself, or what stands between the word that
starts an import line and its semicolons. -/
def target (item : String) : String :=
  onChars (fun s => trim isBlank (trimEnd (· == ';') (afterKeyword (trim isBlank s)))) item

/-- The line that imports a name. -/
def line (name : String) : String := "import " ++ name ++ ";"

/-- The lines of an import block: sorted, and each once. -/
def lines (items : List String) : List String :=
  sortedSet (((items.map target).filter (· != "")).map line)

/-- An import block, which is empty if nothing is imported. -/
def render (items : List String) : String :=
  match lines items with
  | [] => ""
  | ls => join "\n" ls ++ "\n"

end ImportBlock

end EntityScaffold
