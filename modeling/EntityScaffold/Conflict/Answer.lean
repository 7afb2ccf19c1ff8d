import EntityScaffold.Artifact.Identity

/-!
# Answers to conflicts

What may be answered when an artifact would take the place of an existing file, and what is done
then. Half of the answers also settle all later conflicts of the batch.
-/

namespace EntityScaffold

/-- What is done in a conflict. -/
inductive ConflictAction
  | write
  | skip
  | rename
  deriving DecidableEq, Repr, Inhabited

/-- An answer to a conflict. -/
inductive Answer
  /-- An answer to this conflict only. -/
  | once (action : ConflictAction)
  /-- An answer to this conflict and all later ones. -/
  | always (action : ConflictAction)
  deriving DecidableEq, Repr, Inhabited

namespace ConflictAction

/-- All actions. -/
def all : List ConflictAction := [write, skip, rename]

def name : ConflictAction → String
  | write => "write"
  | skip => "skip"
  | rename => "rename"

end ConflictAction

namespace Answer

/-- All answers, those to one conflict first. -/
def all : List Answer := ConflictAction.all.map once ++ ConflictAction.all.map always

def action : Answer → ConflictAction
  | once a => a
  | always a => a

/-- The answer settles later conflicts too. -/
def pins : Answer → Bool
  | once _ => false
  | always _ => true

def name : Answer → String
  | once a => a.name
  | always a => a.name ++ "_all"

end Answer

/-- What becomes of an artifact. -/
inductive Decision
  | write
  | skip
  | rename (newName : String)
  deriving DecidableEq, Repr, Inhabited

namespace Decision

def action : Decision → ConflictAction
  | write => .write
  | skip => .skip
  | rename _ => .rename

/-- The name under which a renamed artifact is filed. -/
def newName? : Decision → Option String
  | rename newName => some newName
  | _ => none

/-- The identity that a decision takes for an artifact, if it takes one. The empty name takes
none. -/
def target? (id : Identity) : Decision → Option Identity
  | write => some id
  | skip => none
  | rename newName => if newName = "" then none else some { id with className := newName }

end Decision

end EntityScaffold
