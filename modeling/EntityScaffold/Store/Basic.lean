import EntityScaffold.Artifact.Identity

/-!
# Stores

A store keeps generated files. It tells which identities are taken, and a write may fail; a write
that fails may still have changed the store.
-/

namespace EntityScaffold

/-- Why an artifact could not be written. -/
structure WriteFault where
  id : Identity
  detail : String
  deriving DecidableEq, Repr

/-- The words for it. -/
def WriteFault.message (e : WriteFault) : String :=
  "Cannot write " ++ e.id.package ++ "." ++ e.id.className ++ ": " ++ e.detail

/-- Something that keeps generated files. -/
class Store (τ : Type) where
  /-- Identities of the files that are there. -/
  existing : τ → List Identity
  /-- Keeps a text under an identity. -/
  write : τ → Identity → String → Except WriteFault Unit × τ

end EntityScaffold
