import EntityScaffold.Build.BuildFile
import EntityScaffold.Files.Scan

/-!
# The build file of a project

A build file in the root of a project counts before those below it, and among these the first of
the kind that is looked for first.
-/

namespace EntityScaffold

namespace BuildKind

/-- The name of the files of a kind. -/
def fileName : BuildKind → String
  | maven => "pom.xml"
  | gradleGroovy => "build.gradle"
  | gradleKotlin => "build.gradle.kts"
  | unknown => ""

/-- The kinds in the order in which the root of a project is searched. -/
def inRoot : List BuildKind := [maven, gradleGroovy, gradleKotlin]

/-- The kinds in the order in which directories below the root are searched. -/
def belowRoot : List BuildKind := [maven, gradleKotlin, gradleGroovy]

end BuildKind

/-- Where the build file of a project is. -/
structure BuildPlace where
  kind : BuildKind
  path : Option Path
  deriving DecidableEq, Repr, Inhabited

namespace BuildPlace

/-- The build file in the root of a project. -/
def inRoot? (t : FileTree) (root : Path) : Option BuildPlace :=
  (BuildKind.inRoot.find? fun (k : BuildKind) => (t.locate (root.child k.fileName)).toOption.isSome).map
    fun k => ⟨k, some (root.child k.fileName)⟩

/-- The first build file below the root of a project. -/
def belowRoot? (t : FileTree) (root : Path) : Option BuildPlace :=
  BuildKind.belowRoot.findSome? fun k =>
    (t.allNamed root k.fileName).head?.map fun p => ⟨k, some p⟩

/-- The build file of a project. -/
def find (t : FileTree) (root : Path) : BuildPlace :=
  ((inRoot? t root).or (belowRoot? t root)).getD ⟨.unknown, none⟩

/-- The build file with its text, which is empty if there is none. -/
def read (b : BuildPlace) (t : FileTree) : Except FileFault BuildFile :=
  match b.path with
  | none => .ok ⟨b.kind, ""⟩
  | some p => (t.read p).map (BuildFile.mk b.kind)

end BuildPlace

/-- The build file of a project with its text. -/
def BuildFile.ofProject (t : FileTree) (root : Path) : Except FileFault BuildFile :=
  (BuildPlace.find t root).read t

end EntityScaffold
