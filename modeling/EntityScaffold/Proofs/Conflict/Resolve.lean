import Mathlib.Tactic.Common
import EntityScaffold.Conflict.Batch

/-!
# One step of a batch

What settling a single artifact can do, said once for all later arguments:

* an identity that nothing takes is written, and nobody is asked;
* a taken one is settled by the pin, or else by an answer, which may set the pin;
* only an answer changes the pin, and it is asked for only where there is no pin;
* a new name is one that nothing takes.
-/

namespace EntityScaffold

/-- The identity under which a decision files an artifact, if it files it. -/
def Decision.identity? (id : Identity) : Decision → Option Identity
  | write => some id
  | skip => none
  | rename newName => some { id with className := newName }

namespace Batch

variable {σ : Type} {advisor : Advisor σ} {alternative : Option (String → String)}
  {existing : List Identity} {id : Identity} {b : Batch} {s : σ}

theorem isTaken_iff : b.isTaken existing id = true ↔ id ∈ existing ∨ id ∈ b.claimed := by
  simp [isTaken]

theorem isTaken_eq_false_iff :
    b.isTaken existing id = false ↔ id ∉ existing ∧ id ∉ b.claimed := by
  simp [isTaken]

/-- Which identities exist matters, and nothing else about them. -/
theorem isTaken_congr {existing' : List Identity} (h : ∀ id, id ∈ existing ↔ id ∈ existing') :
    b.isTaken existing = b.isTaken existing' := by
  funext id
  rw [Bool.eq_iff_iff, isTaken_iff, isTaken_iff, h]

/-! ### Consulting -/

theorem consult_of_pin {a : ConflictAction} (h : b.pin = some a) :
    b.consult advisor id s = ((b, a), s) := by
  unfold consult; rw [h]

theorem consult_of_no_pin (h : b.pin = none) :
    b.consult advisor id s = (((b.answered (advisor id s).1).1, (b.answered (advisor id s).1).2),
      (advisor id s).2) := by
  unfold consult; rw [h]

/-- The action after an answer is that of the answer, and none means to skip. -/
theorem action_answered (c : Option Answer) :
    (b.answered c).2 = (c.map Answer.action).getD .skip := by
  rcases c with _ | _ | _ <;> rfl

/-- Only an answer for all conflicts pins anything but skipping. -/
theorem pin_answered_eq_write (c : Option Answer) (h : b.pin = none) :
    (b.answered c).1.pin = some .write ↔ c = some (.always .write) := by
  rcases c with _ | _ | a <;> simp [answered, h]

/-- Only no answer cancels a batch. -/
theorem cancelled_answered (c : Option Answer) :
    (b.answered c).1.cancelled = (b.cancelled || c.isNone) := by
  rcases c with _ | _ | _ <;> simp [answered]

/-- An answer claims nothing. -/
theorem claimed_answered (c : Option Answer) : (b.answered c).1.claimed = b.claimed := by
  rcases c with _ | _ | _ <;> rfl

theorem claimed_consult : (b.consult advisor id s).1.1.claimed = b.claimed := by
  cases hp : b.pin with
  | some a => rw [consult_of_pin hp]
  | none => rw [consult_of_no_pin hp]; exact claimed_answered _

/-! ### Deciding -/

theorem action_of_decide {a : ConflictAction} {d : Decision}
    (h : b.decide alternative existing id a = .ok d) : d.action = a := by
  cases a with
  | write => cases h; rfl
  | skip => cases h; rfl
  | rename =>
    simp only [decide] at h
    split at h
    · cases h; rfl
    · cases h

/-- A new name is one of those to try, and nothing takes it. -/
theorem free_of_decide_rename {a : ConflictAction} {name : String}
    (h : b.decide alternative existing id a = .ok (.rename name)) :
    name ∈ candidates alternative id.className ∧
      b.isTaken existing { id with className := name } = false := by
  cases a with
  | write => cases h
  | skip => cases h
  | rename =>
    simp only [decide] at h
    split at h
    · rename_i found
      cases h
      exact ⟨List.mem_of_find?_eq_some found, by simpa using List.find?_some found⟩
    · cases h

/-- A numbered name is neither empty nor the name itself. -/
theorem ne_of_mem_candidates {className name : String} (h : name ∈ candidates none className) :
    name ≠ "" ∧ name ≠ className := by
  obtain ⟨n, -, rfl⟩ := List.mem_map.1 h
  constructor
  · intro hempty
    have hchars := congrArg String.toList hempty
    simp at hchars
  · intro hsame
    have hchars := congrArg String.toList hsame
    simp at hchars

/-! ### Settling -/

theorem resolve_of_free (h : b.isTaken existing id = false) :
    b.resolve advisor alternative existing id s = (.ok .write, b.record id .write, s) := by
  unfold resolve; rw [if_neg (by simp [h])]

/-- A taken identity is settled from what the consultation gives. -/
theorem resolve_of_taken (h : b.isTaken existing id = true) :
    b.resolve advisor alternative existing id s =
      match (b.consult advisor id s).1.1.decide alternative existing id
          (b.consult advisor id s).1.2 with
      | .ok d => (.ok d, (b.consult advisor id s).1.1.record id d, (b.consult advisor id s).2)
      | .error e => (.error e, (b.consult advisor id s).1.1, (b.consult advisor id s).2) := by
  unfold resolve
  exact if_pos h

/-- A decision on a taken identity is made on the action of the consultation. -/
theorem decide_of_resolve {d : Decision} (ht : b.isTaken existing id = true)
    (h : (b.resolve advisor alternative existing id s).1 = .ok d) :
    (b.consult advisor id s).1.1.decide alternative existing id (b.consult advisor id s).1.2 =
      .ok d := by
  rw [resolve_of_taken ht] at h
  cases hd : (b.consult advisor id s).1.1.decide alternative existing id
      (b.consult advisor id s).1.2 with
  | error e => rw [hd] at h; cases h
  | ok d' => rw [hd] at h; cases h; rfl

/-- The batch after an artifact is settled has the pin that the consultation leaves. -/
theorem pin_resolve_of_taken (h : b.isTaken existing id = true) :
    (b.resolve advisor alternative existing id s).2.1.pin =
      (b.consult advisor id s).1.1.pin := by
  rw [resolve_of_taken h]
  split <;> rfl

/-- The batch after an artifact is settled is cancelled if the consultation leaves it so. -/
theorem cancelled_resolve_of_taken (h : b.isTaken existing id = true) :
    (b.resolve advisor alternative existing id s).2.1.cancelled =
      (b.consult advisor id s).1.1.cancelled := by
  rw [resolve_of_taken h]
  split <;> rfl

/-- A decision claims the identity that it takes, if it takes one. -/
theorem claimed_of_resolve {b' : Batch} {s' : σ} {d : Decision}
    (h : b.resolve advisor alternative existing id s = (.ok d, b', s')) :
    b'.claimed = b.claimed ++ (d.target? id).toList := by
  cases ht : b.isTaken existing id with
  | false =>
    rw [resolve_of_free ht] at h
    cases h
    rfl
  | true =>
    rw [resolve_of_taken ht] at h
    split at h <;> cases h
    rw [record, claimed_consult]

/-- A batch begins to write over everything only by an answer that says so. -/
theorem pin_of_pin_resolve
    (h : (b.resolve advisor alternative existing id s).2.1.pin = some .write) :
    b.pin = some .write ∨ b.pin = none ∧ b.isTaken existing id = true ∧
      (advisor id s).1 = some (.always .write) := by
  cases ht : b.isTaken existing id with
  | false =>
    rw [resolve_of_free ht] at h
    exact Or.inl h
  | true =>
    rw [pin_resolve_of_taken ht] at h
    cases hp : b.pin with
    | some a =>
      rw [consult_of_pin hp, hp] at h
      exact Or.inl h
    | none =>
      rw [consult_of_no_pin hp, pin_answered_eq_write _ hp] at h
      exact Or.inr ⟨rfl, rfl, h⟩

/-- **A taken identity is written over only by a pin or an answer.** -/
theorem pin_or_answer_of_resolve_write (ht : b.isTaken existing id = true)
    (h : (b.resolve advisor alternative existing id s).1 = .ok .write) :
    b.pin = some .write ∨ b.pin = none ∧
      ((advisor id s).1 = some (.once .write) ∨ (advisor id s).1 = some (.always .write)) := by
  have ha := action_of_decide (decide_of_resolve ht h)
  cases hp : b.pin with
  | some a =>
    rw [consult_of_pin hp] at ha
    exact Or.inl (congrArg some ha.symm)
  | none =>
    rw [consult_of_no_pin hp, action_answered] at ha
    rcases hq : (advisor id s).1 with _ | c | c <;> rw [hq] at ha <;> cases ha
    · exact Or.inr ⟨rfl, Or.inl rfl⟩
    · exact Or.inr ⟨rfl, Or.inr rfl⟩

/-- A renamed artifact gets one of the names to try, and takes no identity that is taken. -/
theorem free_of_resolve_rename {name : String}
    (h : (b.resolve advisor alternative existing id s).1 = .ok (.rename name)) :
    name ∈ candidates alternative id.className ∧
      b.isTaken existing { id with className := name } = false := by
  cases ht : b.isTaken existing id with
  | false => rw [resolve_of_free ht] at h; cases h
  | true =>
    obtain ⟨hname, hfree⟩ := free_of_decide_rename (decide_of_resolve ht h)
    refine ⟨hname, ?_⟩
    rwa [isTaken, claimed_consult] at hfree

theorem resolve_congr {existing' : List Identity} (h : ∀ id, id ∈ existing ↔ id ∈ existing') :
    b.resolve advisor alternative existing id s = b.resolve advisor alternative existing' id s := by
  have hdecide (b : Batch) (a : ConflictAction) :
      b.decide alternative existing id a = b.decide alternative existing' id a := by
    cases a with
    | write | skip => rfl
    | rename => simp only [decide, unusedName?, isTaken_congr h]
  simp only [resolve, isTaken_congr h, hdecide]

end Batch

end EntityScaffold
