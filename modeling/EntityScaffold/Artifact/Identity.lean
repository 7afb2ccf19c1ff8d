import EntityScaffold.Settings.Basic

/-!
# Identities of artifacts

The package and the class name under which an artifact is filed, known before it is generated.
-/

namespace EntityScaffold

/-- A class by its package and its name. -/
structure Identity where
  package : String
  className : String
  deriving DecidableEq, Repr, Inhabited

namespace Identity

def qualifiedName (i : Identity) : String := ResolvedType.qualify i.package i.className

/-- Identities in order: by package, and by class name within a package. -/
def le (a b : Identity) : Bool :=
  if a.package = b.package then decide (a.className ≤ b.className)
  else decide (a.package ≤ b.package)

/-- Identities in order, each once. -/
def sortedSet (ids : List Identity) : List Identity := ids.eraseDups.mergeSort le

end Identity

namespace Layer

/-- The class name of an artifact. -/
def className (k : Layer) (m : Entity) (p : Settings) : String :=
  m.className ++ (p.layer k).suffix

/-- The package of an artifact. -/
def package (k : Layer) (m : Entity) (p : Settings) : String :=
  p.package m (p.layer k).subPackage

/-- The identity of an artifact. -/
def identity (k : Layer) (m : Entity) (p : Settings) : Identity :=
  ⟨k.package m p, k.className m p⟩

/-- The qualified class name of an artifact. -/
def qualifiedName (k : Layer) (m : Entity) (p : Settings) : String :=
  (k.identity m p).qualifiedName

/-- Whether artifacts of a layer are generated. A mapper maps to transfer objects and needs them. -/
def isEnabled (k : Layer) (p : Settings) : Bool :=
  p.enabled k && (k != .mapper || p.enabled .dto)

end Layer

end EntityScaffold
