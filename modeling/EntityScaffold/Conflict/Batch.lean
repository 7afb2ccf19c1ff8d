import EntityScaffold.Conflict.Answer

/-!
# Conflicts in a batch

The artifacts of a batch are settled one after the other. One that takes no existing or claimed
identity is written. Otherwise the batch's pinned action decides, and without one somebody is asked;
no answer cancels the batch, which then skips every later conflict.
-/

namespace EntityScaffold

/-- Somebody who answers conflicts, or gives no answer, from what happened before. -/
abbrev Advisor (σ : Type) := Identity → σ → Option Answer × σ

/-- An advisor who gives the same answer to every conflict. -/
def Advisor.constant {σ : Type} (c : Answer) : Advisor σ := fun _ s => (some c, s)

/-- What is settled in a batch so far. -/
structure Batch where
  /-- The action for all further conflicts. -/
  pin : Option ConflictAction := none
  cancelled : Bool := false
  /-- Decisions in their order. -/
  decisions : List (Identity × Decision) := []
  /-- Identities that artifacts of the batch take. -/
  claimed : List Identity := []
  deriving Inhabited

namespace Batch

/-- A batch in which every conflict is settled from the start. -/
def pinned (action : ConflictAction) : Batch := { pin := some action }

/-- The batch after a decision on an artifact. -/
def record (b : Batch) (id : Identity) (d : Decision) : Batch :=
  { b with decisions := b.decisions ++ [(id, d)], claimed := b.claimed ++ (d.target? id).toList }

/-- An identity that no artifact can take without a conflict. -/
def isTaken (b : Batch) (existing : List Identity) (id : Identity) : Bool :=
  id ∈ existing || id ∈ b.claimed

/-- The number of names that are tried for an artifact. -/
def attempts : Nat := 1000

/-- A name and what a function makes of it over and over, without the name itself. -/
def iterates (f : String → String) : Nat → String → List String
  | 0, _ => []
  | n + 1, s => f s :: iterates f n (f s)

/-- Names to try for an artifact: its own with numbers from two on, or what a function makes of
it. -/
def candidates (alternative : Option (String → String)) (className : String) : List String :=
  match alternative with
  | none => (List.range attempts).map fun n => className ++ toString (n + 2)
  | some f => iterates f attempts className

/-- The first name to try that is not taken. -/
def unusedName? (b : Batch) (alternative : Option (String → String)) (existing : List Identity)
    (id : Identity) : Option String :=
  (candidates alternative id.className).find? fun name =>
    !b.isTaken existing { id with className := name }

/-- No name is left for an artifact. -/
structure NoNameLeft where
  id : Identity
  deriving DecidableEq, Repr

/-- The words for it. -/
def NoNameLeft.message (e : NoNameLeft) : String :=
  "No free name for " ++ e.id.package ++ "." ++ e.id.className

/-- The batch after an answer to a conflict, or after none. -/
def answered (b : Batch) : Option Answer → Batch × ConflictAction
  | none => ({ b with cancelled := true, pin := some .skip }, .skip)
  | some (.always a) => ({ b with pin := some a }, a)
  | some (.once a) => (b, a)

/-- The action for a conflict, asked for if the batch has none. -/
def consult {σ : Type} (b : Batch) (advisor : Advisor σ) (id : Identity) (s : σ) :
    (Batch × ConflictAction) × σ :=
  match b.pin with
  | some a => ((b, a), s)
  | none =>
    let (answer, s) := advisor id s
    (b.answered answer, s)

/-- The decision that an action leads to. -/
def decide (b : Batch) (alternative : Option (String → String)) (existing : List Identity)
    (id : Identity) : ConflictAction → Except NoNameLeft Decision
  | .write => .ok .write
  | .skip => .ok .skip
  | .rename =>
    match b.unusedName? alternative existing id with
    | some name => .ok (.rename name)
    | none => .error ⟨id⟩

/-- Settles an artifact. If no name is left for it nothing is recorded, but an answer that settles
later conflicts stays. -/
def resolve {σ : Type} (b : Batch) (advisor : Advisor σ) (alternative : Option (String → String))
    (existing : List Identity) (id : Identity) (s : σ) :
    Except NoNameLeft Decision × Batch × σ :=
  if b.isTaken existing id then
    let ((b, action), s) := b.consult advisor id s
    match b.decide alternative existing id action with
    | .ok d => (.ok d, b.record id d, s)
    | .error e => (.error e, b, s)
  else (.ok .write, b.record id .write, s)

end Batch

end EntityScaffold
