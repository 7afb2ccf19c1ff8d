import EntityScaffold.Text.Cut

/-!
# Paths

Paths of slashes and names, without a file system. Empty names and single dots vanish, two dots
stay. A path is absolute if it starts with a slash; exactly two slashes there are a root of their
own.
-/

namespace EntityScaffold

/-- A path by its root, which is empty for a relative path, and its names. -/
structure Path where
  root : String
  names : List String
  deriving DecidableEq, Repr, Inhabited

namespace Path

/-- The number of slashes a text starts with. -/
def leadingSlashes (s : List Char) : Nat := (s.takeWhile (· == '/')).length

/-- The root of a path text. -/
def rootOf (s : List Char) : String :=
  match leadingSlashes s with
  | 0 => ""
  | 2 => "//"
  | _ => "/"

/-- The path that a text spells. -/
def ofString (s : String) : Path where
  root := rootOf s.toList
  names := ((s.toList.splitOn '/').map String.ofList).filter fun n => n != "" && n != "."

/-- The text of a path; the empty relative path is a dot. -/
def toString (p : Path) : String :=
  if p.root = "" && p.names.isEmpty then "." else p.root ++ Text.join "/" p.names

/-- A path below another one, which an absolute path replaces. -/
def join (p q : Path) : Path := if q.root = "" then { p with names := p.names ++ q.names } else q

/-- A name below a path. -/
def child (p : Path) (name : String) : Path := { p with names := p.names ++ [name] }

/-- The path that names lead to. -/
def descend (p : Path) (names : List String) : Path := { p with names := p.names ++ names }

/-- Names without those that two dots take back. -/
def withoutDots (names : List String) : List String :=
  names.foldl (fun above n => if n = ".." then above.dropLast else above ++ [n]) []

/-- The absolute path without two dots, for a relative one as seen from a directory. -/
def resolve (p : Path) (current : List String) : Path :=
  ⟨"/", withoutDots ((if p.root = "" then current else []) ++ p.names)⟩

/-- The names that lead from one path down to another. -/
def below? (p root : Path) : Option (List String) :=
  if p.root = root.root && root.names.isPrefixOf p.names then
    some (p.names.drop root.names.length)
  else none

/-- The path as seen from a root, or the path itself if it is not below the root. -/
def relativeTo (p root : Path) : Path :=
  match p.below? root with
  | some names => ⟨"", names⟩
  | none => p

/-- The last name without the part from its last dot on, and that part. A dot that is first or last
starts no suffix. -/
def suffixOf (name : String) : String :=
  match Text.cutLast '.' name.toList with
  | some (stem, ext) => if stem.isEmpty || ext.isEmpty then "" else String.ofList ('.' :: ext)
  | none => ""

/-- The directory of a package below a source root. -/
def ofPackage (sourceRoot : Path) (package : String) : Path :=
  if package = "" then sourceRoot
  else sourceRoot.join
    (ofString (String.ofList (package.toList.map fun c => if c = '.' then '/' else c)))

/-- Names in order, the first difference decides, and a list comes before what continues it. -/
def namesLe : List String → List String → Bool
  | [], _ => true
  | _ :: _, [] => false
  | a :: as, b :: bs => if a = b then namesLe as bs else decide (a ≤ b)

end Path

end EntityScaffold
