import EntityScaffold.Text.Trim
import EntityScaffold.Text.Cut

/-!
# The parts of a written type

A type text is cut into its head, its type arguments and its array rank. Arguments are cut at the
commas outside all inner angle brackets. A text with unbalanced brackets is cut too; every argument
is shorter than the text, which is what lets a reader of types recur on the arguments.
-/

namespace EntityScaffold

/-- Head, type arguments and array rank of a written type. -/
structure WrittenType where
  head : List Char
  arguments : List (List Char)
  rank : Nat

namespace WrittenType

open Text

/-- Takes pairs of brackets off the start of a reversed text, with the blanks before each, and
counts them. -/
def peel : List Char → List Char × Nat
  | ']' :: '[' :: s => ((peel (s.dropWhile isBlank)).1, (peel (s.dropWhile isBlank)).2 + 1)
  | s => (s, 0)
termination_by s => s.length
decreasing_by all_goals have := length_dropWhile_le isBlank s; simp; omega

theorem length_peel_le (s : List Char) : (peel s).1.length ≤ s.length := by
  fun_induction peel s with
  | case1 s ih =>
    have := length_dropWhile_le isBlank s
    simp only [List.length_cons]; omega
  | case2 => simp

/-- The pieces of a text between the commas outside all angle brackets, the first of which
continues a piece that is given backwards. -/
def pieces (depth : Int) (current : List Char) : List Char → List (List Char)
  | [] => [current.reverse]
  | c :: s =>
    if c = '<' then pieces (depth + 1) (c :: current) s
    else if c = '>' then pieces (depth - 1) (c :: current) s
    else if c = ',' ∧ depth = 0 then current.reverse :: pieces depth [] s
    else pieces depth (c :: current) s

theorem length_le_of_mem_pieces {depth : Int} {current s p : List Char}
    (h : p ∈ pieces depth current s) : p.length ≤ current.length + s.length := by
  induction s generalizing depth current with
  | nil => simp_all [pieces]
  | cons c s ih =>
    unfold pieces at h
    split at h
    · have := ih h; simp at this ⊢; omega
    · split at h
      · have := ih h; simp at this ⊢; omega
      · split at h
        · rcases List.mem_cons.1 h with rfl | h
          · simp
          · have := ih h; simp at this ⊢; omega
        · have := ih h; simp at this ⊢; omega

/-- The trimmed arguments between two angle brackets. An empty last one is none. -/
def cutArguments (inner : List Char) : List (List Char) :=
  let args := (pieces 0 [] inner).map (trim isBlank)
  if args.getLast? = some [] then args.dropLast else args

theorem mem_map_of_mem_cutArguments {inner a : List Char} (h : a ∈ cutArguments inner) :
    a ∈ (pieces 0 [] inner).map (trim isBlank) := by
  unfold cutArguments at h
  dsimp only at h
  split at h
  · exact List.dropLast_subset _ h
  · exact h

theorem length_le_of_mem_cutArguments {inner a : List Char} (h : a ∈ cutArguments inner) :
    a.length ≤ inner.length := by
  obtain ⟨p, hp, rfl⟩ := List.mem_map.1 (mem_map_of_mem_cutArguments h)
  have := length_le_of_mem_pieces hp
  have := length_trim_le isBlank p
  simp at *; omega

/-- Head and arguments of a text without brackets at its end. -/
def ofUnranked (t : List Char) (rank : Nat) : WrittenType :=
  match cutFirst '<' t with
  | none => ⟨t, [], rank⟩
  | some (head, rest) =>
    if rest.getLast? = some '>' then
      ⟨trim isBlank head, cutArguments rest.dropLast, rank⟩
    else ⟨t, [], rank⟩

/-- The parts of a written type. -/
def ofText (s : List Char) : WrittenType :=
  let (t, rank) := peel (trim isBlank s).reverse
  ofUnranked t.reverse rank

theorem length_lt_of_mem_ofUnranked {t a : List Char} {rank : Nat}
    (h : a ∈ (ofUnranked t rank).arguments) : a.length < t.length := by
  unfold ofUnranked at h
  split at h
  · simp at h
  · rename_i head rest heq
    split at h
    · have h₁ := length_le_of_mem_cutArguments h
      have h₂ := (eq_of_cutFirst heq).1
      subst h₂
      simp at *; omega
    · simp at h

/-- Every argument is shorter than the trimmed text. -/
theorem length_lt_of_mem_arguments {s a : List Char} (h : a ∈ (ofText s).arguments) :
    a.length < (trim isBlank s).length := by
  have h₁ := length_lt_of_mem_ofUnranked h
  have h₂ := length_peel_le (trim isBlank s).reverse
  simp at *; omega

end WrittenType

end EntityScaffold
