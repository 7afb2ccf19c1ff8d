/-!
# Cutting texts

Cuts at the first or the last place of a character, tests for what a text starts with or holds, and
texts put together.
-/

namespace EntityScaffold.Text

/-- The parts before and after the first place of a character. -/
def cutFirst (sep : Char) : List Char → Option (List Char × List Char)
  | [] => none
  | c :: rest =>
    if c = sep then some ([], rest) else (cutFirst sep rest).map fun p => (c :: p.1, p.2)

/-- The parts before and after the last place of a character. -/
def cutLast (sep : Char) : List Char → Option (List Char × List Char)
  | [] => none
  | c :: rest =>
    match cutLast sep rest with
    | some p => some (c :: p.1, p.2)
    | none => if c = sep then some ([], rest) else none

theorem cutFirst_eq_none_iff {sep : Char} {s : List Char} : cutFirst sep s = none ↔ sep ∉ s := by
  induction s with
  | nil => simp [cutFirst]
  | cons c s ih => by_cases h : c = sep <;> simp_all [cutFirst, Ne.symm]

theorem eq_of_cutFirst {sep : Char} {s a b : List Char} (h : cutFirst sep s = some (a, b)) :
    s = a ++ sep :: b ∧ sep ∉ a := by
  induction s generalizing a with
  | nil => simp [cutFirst] at h
  | cons c s ih =>
    by_cases hc : c = sep
    · simp [cutFirst, hc] at h
      obtain ⟨rfl, rfl⟩ := h
      simp [hc]
    · simp only [cutFirst, hc, if_false, Option.map_eq_some_iff] at h
      obtain ⟨⟨a', b'⟩, h', e⟩ := h
      simp only [Prod.mk.injEq] at e
      obtain ⟨rfl, rfl⟩ := e
      obtain ⟨rfl, hn⟩ := ih h'
      simp [hn, Ne.symm hc]

theorem cutLast_eq_none_iff {sep : Char} {s : List Char} : cutLast sep s = none ↔ sep ∉ s := by
  induction s with
  | nil => simp [cutLast]
  | cons c s ih =>
    unfold cutLast
    cases h : cutLast sep s with
    | none => by_cases hc : c = sep <;> simp_all [Ne.symm]
    | some p => simp_all

theorem eq_of_cutLast {sep : Char} {s a b : List Char} (h : cutLast sep s = some (a, b)) :
    s = a ++ sep :: b ∧ sep ∉ b := by
  induction s generalizing a with
  | nil => simp [cutLast] at h
  | cons c s ih =>
    unfold cutLast at h
    cases hs : cutLast sep s with
    | none =>
      rw [hs] at h
      by_cases hc : c = sep
      · simp only [hc, if_true, Option.some.injEq, Prod.mk.injEq] at h
        obtain ⟨rfl, rfl⟩ := h
        exact ⟨by simp [hc], cutLast_eq_none_iff.1 hs⟩
      · simp [hc] at h
    | some p =>
      rw [hs] at h
      simp only [Option.some.injEq, Prod.mk.injEq] at h
      obtain ⟨rfl, rfl⟩ := h
      obtain ⟨rfl, hn⟩ := ih (a := p.1) (by rw [hs])
      simp [hn]

/-- The rest after a first part, if the text starts with it. -/
def dropStart? (start : List Char) (s : List Char) : Option (List Char) :=
  if start.isPrefixOf s then some (s.drop start.length) else none

/-- The string starts with the other one. -/
def startsWith (s start : String) : Bool := start.toList.isPrefixOf s.toList

/-- A text stands somewhere in another one. -/
def occursIn (part : List Char) : List Char → Bool
  | [] => part.isEmpty
  | c :: rest => part.isPrefixOf (c :: rest) || occursIn part rest

/-- The string holds the other one. -/
def contains (s part : String) : Bool := occursIn part.toList s.toList

/-- The strings with a separator between them. -/
def join (sep : String) : List String → String
  | [] => ""
  | [s] => s
  | s :: rest => s ++ sep ++ join sep rest

/-- The string `n` times. -/
def replicate (n : Nat) (s : String) : String := String.ofList (List.replicate n s.toList).flatten

/-- The strings in ascending order of code points. -/
def sorted (xs : List String) : List String := xs.mergeSort fun a b => decide (a ≤ b)

/-- The strings in ascending order, each once. -/
def sortedSet (xs : List String) : List String := sorted xs.eraseDups

end EntityScaffold.Text
