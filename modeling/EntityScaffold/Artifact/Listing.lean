import EntityScaffold.Naming

/-!
# Listings

A Java file that is about to be written: its package, what it imports, the declaration of its one
type and that type's members. A member is a block of lines, and one blank line stands between two
members.
-/

namespace EntityScaffold

/-- A Java file with one type. -/
structure Listing where
  package : String
  imports : List String
  /-- Lines before the declaration. -/
  markings : List String
  declaration : String
  members : List (List String)

namespace Listing

/-- One step of indentation. -/
def indentation : String := "    "

/-- Lines further to the right; empty lines stay empty. -/
def indent (lines : List String) : List String :=
  lines.map fun l => if l = "" then l else indentation ++ l

/-- A block of lines between braces. -/
def braced (opening : String) (body : List String) : List String :=
  (opening ++ " \x7b") :: indent body ++ ["\x7d"]

/-- The package of a qualified name. -/
def packageOf? (qualified : String) : Option String :=
  (Text.cutLast '.' qualified.toList).map fun p => .ofList p.1

/-- The names that a file of a package has to import: those of other packages. -/
def foreign (package : String) (names : List String) : List String :=
  names.filter fun n => (packageOf? n).any (· != package)

/-- The lines of members, with one blank line between two of them. -/
def spacedLines : List (List String) → List String
  | [] => []
  | [m] => m
  | m :: ms => m ++ "" :: spacedLines ms

/-- The lines of the type. -/
def typeLines (l : Listing) : List String :=
  l.markings ++
    match l.members with
    | [] => [l.declaration ++ " \x7b", "\x7d"]
    | ms => [l.declaration ++ " \x7b", ""] ++ spacedLines (ms.map indent) ++ ["\x7d"]

/-- The lines of the package declaration, with a blank one after it. -/
def packageLines (l : Listing) : List String :=
  if l.package = "" then [] else ["package " ++ l.package ++ ";", ""]

/-- The lines of the imports, with a blank one after them. -/
def importLines (l : Listing) : List String :=
  match ImportBlock.lines l.imports with
  | [] => []
  | ls => ls ++ [""]

/-- All lines of the file. -/
def allLines (l : Listing) : List String := l.packageLines ++ l.importLines ++ l.typeLines

/-- The text of the file, which ends with a newline. -/
def render (l : Listing) : String := Text.join "\n" l.allLines ++ "\n"

end Listing

end EntityScaffold
