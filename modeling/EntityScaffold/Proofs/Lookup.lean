import Mathlib.Tactic.Common

/-!
# Pairs that are looked up

The entries of a directory, the members of an object and the meanings of names are pairs of a name
and a value. What is looked up is the first value of a name; where each name comes up once, it is
the only one.
-/

namespace EntityScaffold

variable {β : Type} {pairs : List (String × β)} {name : String} {value : β}

/-- What is found is there. -/
theorem mem_of_lookup_eq_some (h : pairs.lookup name = some value) : (name, value) ∈ pairs := by
  obtain ⟨before, after, rfl, -⟩ := List.lookup_eq_some_iff.1 h
  simp

/-- What is found behind a first pair. -/
theorem lookup_pair_cons (key : String) (value : β) (name : String) (pairs : List (String × β)) :
    ((key, value) :: pairs).lookup name = if name = key then some value else pairs.lookup name := by
  by_cases h : name = key
  · simp [h]
  · simp [h, List.lookup_cons, beq_false_of_ne h]

/-- A value is looked up by its name, if no other one has that name. -/
theorem lookup_of_mem (hnodup : (pairs.map (·.1)).Nodup) (h : (name, value) ∈ pairs) :
    pairs.lookup name = some value := by
  obtain ⟨before, after, rfl⟩ := List.append_of_mem h
  refine List.lookup_eq_some_iff.2 ⟨before, after, rfl, fun e he => ?_⟩
  rw [List.map_append, List.nodup_append] at hnodup
  rw [bne_iff_ne]
  exact (hnodup.2.2 e.1 (List.mem_map_of_mem he) name (by simp)).symm

/-- Nothing is found under a name that does not come up. -/
theorem lookup_eq_none_iff_notMem : pairs.lookup name = none ↔ name ∉ pairs.map (·.1) := by
  induction pairs with
  | nil => simp
  | cons pair pairs ih =>
    obtain ⟨key, value⟩ := pair
    rw [lookup_pair_cons, List.map_cons, List.mem_cons, not_or, ← ih]
    by_cases h : name = key <;> simp [h]

end EntityScaffold
