import Mathlib.Data.List.Basic
import Mathlib.Tactic.Common
import EntityScaffold.Text.Trim

/-!
# What trimming leaves

A trimmed text has nothing to trim at its ends (`isTrimmed_trim`), and from such a text nothing is
taken off (`IsTrimmed.trim_eq_self`). So trimming twice is trimming once. A text without characters
of the class is trimmed already (`IsTrimmed.of_forall`).
-/

namespace EntityScaffold.Text

variable {p : Char → Bool} {s t : List Char}

/-- The text neither starts nor ends with a character of the class. -/
structure IsTrimmed (p : Char → Bool) (s : List Char) : Prop where
  head : ∀ c ∈ s.head?, p c = false
  last : ∀ c ∈ s.getLast?, p c = false

theorem dropWhile_eq_self (h : ∀ c ∈ s.head?, p c = false) : s.dropWhile p = s := by
  cases s with
  | nil => rfl
  | cons c s => simp [h c rfl]

theorem trimEnd_eq_self (h : ∀ c ∈ s.getLast?, p c = false) : trimEnd p s = s := by
  rw [← List.head?_reverse] at h
  rw [trimEnd, dropWhile_eq_self h, List.reverse_reverse]

theorem head?_dropWhile {c : Char} (h : c ∈ (s.dropWhile p).head?) : p c = false := by
  have hnot := List.head?_dropWhile_not p s
  rw [Option.mem_def.1 h] at hnot
  exact hnot

theorem trimEnd_isPrefix (p : Char → Bool) (s : List Char) : trimEnd p s <+: s := by
  rw [← List.reverse_suffix, trimEnd, List.reverse_reverse]
  exact List.dropWhile_suffix p

/-- A first part starts as the whole does, unless it is empty. -/
theorem mem_head?_of_isPrefix {c : Char} (h : s <+: t) (hc : c ∈ s.head?) : c ∈ t.head? := by
  obtain ⟨rest, rfl⟩ := h
  cases s with
  | nil => cases hc
  | cons d s => exact hc

/-- **A trimmed text has nothing to trim.** -/
theorem isTrimmed_trim (p : Char → Bool) (s : List Char) : IsTrimmed p (trim p s) where
  head c hc := head?_dropWhile (mem_head?_of_isPrefix (trimEnd_isPrefix p _) hc)
  last c hc := by
    rw [trim, trimEnd, List.getLast?_reverse] at hc
    exact head?_dropWhile hc

@[simp] theorem toList_stripOf (p : Char → Bool) (s : String) :
    (stripOf p s).toList = trim p s.toList := toList_onChars _ s

theorem length_stripOf (p : Char → Bool) (s : String) :
    (stripOf p s).length = (trim p s.toList).length := by
  rw [← String.length_toList, toList_stripOf]

theorem mem_of_mem_trim {c : Char} (h : c ∈ trim p s) : c ∈ s :=
  (List.dropWhile_sublist p).mem ((trimEnd_isPrefix p _).mem h)

namespace IsTrimmed

/-- Without characters of the class there is nothing to trim. -/
theorem of_forall (h : ∀ c ∈ s, p c = false) : IsTrimmed p s where
  head c hc := h c (List.mem_of_mem_head? hc)
  last c hc := h c (List.mem_of_mem_getLast? hc)

theorem trim_eq_self (h : IsTrimmed p s) : trim p s = s := by
  rw [trim, trimStart, dropWhile_eq_self h.head, trimEnd_eq_self h.last]

theorem stripOf_eq_self {s : String} (h : IsTrimmed p s.toList) : stripOf p s = s := by
  rw [stripOf, onChars, h.trim_eq_self, String.ofList_toList]

/-- Something in front that starts outside the class, and something behind that ends outside it. -/
theorem append (hs : IsTrimmed p s) (ht : IsTrimmed p t) (hs' : s ≠ []) (ht' : t ≠ [])
    (middle : List Char) : IsTrimmed p (s ++ middle ++ t) where
  head := by
    rw [List.append_assoc, List.head?_append_of_ne_nil _ hs']
    exact hs.head
  last := by
    rw [List.getLast?_append_of_ne_nil _ ht']
    exact ht.last

end IsTrimmed

@[simp] theorem trim_trim (p : Char → Bool) (s : List Char) : trim p (trim p s) = trim p s :=
  (isTrimmed_trim p s).trim_eq_self

end EntityScaffold.Text
