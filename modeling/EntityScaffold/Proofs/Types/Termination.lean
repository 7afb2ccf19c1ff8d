import Mathlib.Algebra.Order.BigOperators.Group.List
import Mathlib.Algebra.Order.Ring.Nat
import EntityScaffold.Proofs.Types.Node

/-!
# Resolving ends

What is resolved inside a text is shorter than the text without the blanks around it, whether
brackets match or not. To see that, resolving is taken apart: one step with the answers for the
texts inside left open (`TypeTable.resolveWith`), which asks for shorter texts only
(`TypeTable.resolveWith_eq`), and steps inside one another up to a depth
(`TypeTable.resolveWithin`), of which there are never more than the text has characters, and one.

The resolved type has no more nodes than the text has characters, if there are any. Each argument
has a comma behind it or a character of its own, so an empty one is paid for too
(`WrittenType.sum_cutArguments_le`).
-/

namespace EntityScaffold

open Text

/-! ### Lengths of arguments -/

namespace WrittenType

/-- Each piece with a comma behind it, all of them are one longer than the text. -/
theorem sum_pieces (depth : Int) (current s : List Char) :
    ((pieces depth current s).map fun p => p.length + 1).sum = current.length + s.length + 1 := by
  fun_induction pieces depth current s with
  | case1 depth current => simp
  | case2 depth current s ih =>
    rw [ih, List.length_cons, List.length_cons]
    omega
  | case3 depth current s _ ih =>
    rw [ih, List.length_cons, List.length_cons]
    omega
  | case4 depth current c s _ _ _ ih =>
    -- the comma ends a piece, and the next one starts with nothing
    rw [List.map_cons, List.sum_cons, ih, List.length_reverse, List.length_nil, List.length_cons]
    omega
  | case5 depth current c s _ _ _ ih =>
    rw [ih, List.length_cons, List.length_cons]
    omega

theorem pieces_ne_nil (depth : Int) (current s : List Char) : pieces depth current s ≠ [] := by
  intro h
  have hsum := sum_pieces depth current s
  simp [h] at hsum

/-- **Arguments are paid for by the text between the brackets**, one character for each empty one.
-/
theorem sum_cutArguments_le (inner : List Char) :
    ((cutArguments inner).map fun a => max 1 a.length).sum ≤ inner.length := by
  obtain ⟨first, last, hpieces⟩ := (List.eq_nil_or_concat (pieces 0 [] inner)).resolve_left
    (pieces_ne_nil 0 [] inner)
  rw [List.concat_eq_append] at hpieces
  have hsum : (first.map fun p => p.length + 1).sum + last.length = inner.length := by
    have hall := sum_pieces 0 [] inner
    rw [hpieces] at hall
    simpa [← Nat.add_assoc] using hall
  have hfirst : (first.map fun p => max 1 (trim isBlank p).length).sum ≤
      (first.map fun p => p.length + 1).sum := by
    refine List.sum_le_sum fun p _ => ?_
    have := length_trim_le isBlank p
    omega
  rw [cutArguments, hpieces]
  simp only [List.map_append, List.map_cons, List.map_nil, List.getLast?_concat,
    Option.some.injEq, List.dropLast_concat]
  split_ifs with hempty
  · simp only [List.map_map, Function.comp_def]
    omega
  · -- the last argument is not empty, so it pays for itself without a comma
    have hpos := List.length_pos_iff.2 hempty
    have hlast := length_trim_le isBlank last
    simp only [List.map_append, List.map_map, Function.comp_def, List.sum_append, List.map_cons,
      List.map_nil, List.sum_singleton]
    omega

/-- The arguments of a text take less room than the text, brackets included. -/
theorem sum_arguments_ofUnranked_lt (t : List Char) (rank : Nat) :
    ((ofUnranked t rank).arguments.map fun a => max 1 a.length).sum < max 1 t.length := by
  unfold ofUnranked
  split
  · simp
  · next head rest hcut =>
    split_ifs with hclose
    · have hsum := sum_cutArguments_le rest.dropLast
      have hlength := congrArg List.length (eq_of_cutFirst hcut).1
      rw [List.length_append, List.length_cons] at hlength
      rw [List.length_dropLast] at hsum
      dsimp only
      omega
    · simp

theorem sum_arguments_lt (s : List Char) :
    ((ofText s).arguments.map fun a => max 1 a.length).sum < max 1 (trim isBlank s).length := by
  have hpeel := length_peel_le (trim isBlank s).reverse
  have hsum := sum_arguments_ofUnranked_lt (peel (trim isBlank s).reverse).1.reverse
    (peel (trim isBlank s).reverse).2
  rw [List.length_reverse] at hpeel hsum
  rw [ofText]
  dsimp only
  omega

end WrittenType

/-! ### Nodes -/

theorem ResolvedType.length_nodesAll (ts : List ResolvedType) :
    (nodesAll ts).length = (ts.map fun t => t.nodes.length).sum := by
  induction ts with
  | nil => rfl
  | cons t ts ih => rw [nodesAll, List.length_append, ih, List.map_cons, List.sum_cons]

namespace TypeTable

variable {table : TypeTable}

/-- **A resolved type has no more nodes than its text has characters**, if it has any. -/
theorem IsPlain.length_nodes_le (h : table.IsPlain) (s : List Char) :
    (table.resolveChars s).nodes.length ≤ max 1 (trim isBlank s).length := by
  induction s using resolveChars.induct with
  | case1 s rest hrest bound hbound ih =>
    have hlt := length_lt_of_wildcardBound? hbound
    have hle := length_trim_le isBlank bound
    rw [resolveChars_of_wildcard hrest, hbound, hrest, List.length_cons]
    dsimp only
    omega
  | case2 s rest hrest hbound =>
    rw [resolveChars_of_wildcard hrest, hbound]
    simp [ResolvedType.object]
  | case3 s hwritten written ih =>
    have hargs : (written.arguments.map fun a => (table.resolveChars a).nodes.length).sum ≤
        (written.arguments.map fun a => max 1 a.length).sum := by
      refine List.sum_le_sum fun a ha => ?_
      have hnodes := ih ⟨a, ha⟩
      have hle := length_trim_le isBlank a
      dsimp only at hnodes
      omega
    have hsum := WrittenType.sum_arguments_lt (trim isBlank s)
    rw [trim_trim] at hsum
    rw [resolveChars_of_written hwritten]
    dsimp only
    rw [assemble_of_plain (h.resolveHead _), ResolvedType.nodes, List.length_cons,
      ResolvedType.length_nodesAll, List.map_map]
    exact Nat.succ_le_of_lt (hargs.trans_lt hsum)

-- the two arguments that are missing are nodes as well
example : (standard.resolve "A<,,>").nodes.length = 3 := by decide +kernel

/-! ### Steps -/

/-- One step of resolving a text: the answers for the texts inside it are taken from elsewhere, and
if one of them is missing there is no answer. A bound is asked for with the blank in front of it. -/
def resolveWith (table : TypeTable) (answer? : List Char → Option ResolvedType) (s : List Char) :
    Option ResolvedType :=
  match trim isBlank s with
  | '?' :: rest =>
    match wildcardBound? rest with
    | some bound => answer? (' ' :: bound)
    | none => some .object
  | t =>
    let written := WrittenType.ofText t
    (written.arguments.mapM answer?).map fun args =>
      assemble (table.resolveHead written.head) args written.rank

/-- Resolves a text with steps inside one another up to a depth, and gives up below it. -/
def resolveWithin (table : TypeTable) : Nat → List Char → Option ResolvedType
  | 0, _ => none
  | depth + 1, s => table.resolveWith (table.resolveWithin depth) s

/-- Blanks around a text do not matter. -/
theorem resolveChars_congr {s t : List Char} (h : trim isBlank s = trim isBlank t) :
    table.resolveChars s = table.resolveChars t := by
  by_cases hwild : ∃ rest, trim isBlank s = '?' :: rest
  · obtain ⟨rest, hrest⟩ := hwild
    rw [resolveChars_of_wildcard hrest, resolveChars_of_wildcard (h ▸ hrest)]
  · have hwritten : ∀ rest, trim isBlank s ≠ '?' :: rest := fun rest h => hwild ⟨rest, h⟩
    rw [resolveChars_of_written hwritten, resolveChars_of_written (h ▸ hwritten), h]

theorem mapM_eq_some {α β : Type} {f : α → Option β} {g : α → β} {as : List α}
    (h : ∀ a ∈ as, f a = some (g a)) : as.mapM f = some (as.map g) := by
  induction as with
  | nil => rfl
  | cons a as ih =>
    obtain ⟨ha, has⟩ := List.forall_mem_cons.1 h
    rw [List.mapM_cons, ha, ih has]
    rfl

/-- **A step asks for shorter texts only**: the answers for these are all that it needs. -/
theorem resolveWith_eq {answer? : List Char → Option ResolvedType} {s : List Char}
    (h : ∀ a, a.length < (trim isBlank s).length → answer? a = some (table.resolveChars a)) :
    table.resolveWith answer? s = some (table.resolveChars s) := by
  unfold resolveWith
  split
  · next rest hrest =>
    rw [resolveChars_of_wildcard hrest]
    cases hbound : wildcardBound? rest with
    | some bound =>
      have hlt := length_lt_of_wildcardBound? hbound
      have hblank : trim isBlank (' ' :: bound) = trim isBlank bound := rfl
      have hanswer := h (' ' :: bound) (by simpa [hrest] using hlt)
      rwa [resolveChars_congr hblank] at hanswer
    | none => rfl
  · next hwritten =>
    have hargs : ∀ a ∈ (WrittenType.ofText (trim isBlank s)).arguments,
        answer? a = some (table.resolveChars a) := by
      intro a ha
      have hlt := WrittenType.length_lt_of_mem_arguments ha
      rw [trim_trim] at hlt
      exact h a hlt
    rw [resolveChars_of_written hwritten]
    dsimp only
    rw [mapM_eq_some hargs, Option.map_some]

/-- Steps inside one another are never more than the characters of the text, and one. -/
theorem resolveWithin_eq {depth : Nat} {s : List Char} (h : (trim isBlank s).length < depth) :
    table.resolveWithin depth s = some (table.resolveChars s) := by
  induction depth generalizing s with
  | zero => exact absurd h (Nat.not_lt_zero _)
  | succ depth ih =>
    refine resolveWith_eq fun a ha => ih ?_
    have hle := length_trim_le isBlank a
    omega

/-- **Resolving ends on every text**, whether brackets match or not. Each argument is shorter than
the text without the blanks around it. A step asks for shorter texts only, those behind a wildcard
too, so it ends with any table, with no more steps inside one another than the text has characters,
and one. With the standard table the resolved type has no more nodes than the text has characters,
if there are any: an argument that is missing between two commas is a node as well. -/
theorem resolution_ends (s : String) :
    (∀ a ∈ (WrittenType.ofText s.toList).arguments, a.length < (strip s).length) ∧
    (∀ (table : TypeTable) (answer? : List Char → Option ResolvedType),
      (∀ a, a.length < (strip s).length → answer? a = some (table.resolveChars a)) →
        table.resolveWith answer? s.toList = some (table.resolve s)) ∧
    (∀ (table : TypeTable) (depth : Nat), (strip s).length < depth →
      table.resolveWithin depth s.toList = some (table.resolve s)) ∧
    (standard.resolve s).nodes.length ≤ max 1 (strip s).length := by
  rw [strip, length_stripOf]
  exact ⟨fun a => WrittenType.length_lt_of_mem_arguments, fun table answer? => resolveWith_eq,
    fun table depth => resolveWithin_eq, standard_isPlain.length_nodes_le s.toList⟩

/-- Two arguments are missing, and the bound of the third one has a bracket that is not closed. -/
def missingArguments : String := " A<,,? super B<C> "

/-- The missing arguments and the wildcard are all shorter than the sixteen characters of the text,
and the type has no more nodes. -/
theorem resolution_ends_missingArguments :
    (∀ a ∈ [[], "? super B<C".toList],
      a ∈ (WrittenType.ofText missingArguments.toList).arguments ∧ a.length < 16) ∧
    standard.resolveWith (fun a => if a.length < 16 then some (standard.resolveChars a) else none)
      missingArguments.toList = some (standard.resolve missingArguments) ∧
    standard.resolveWithin 17 missingArguments.toList = some (standard.resolve missingArguments) ∧
    (standard.resolve missingArguments).nodes.length ≤ 16 := by
  have hlength : (strip missingArguments).length = 16 := by
    rw [strip, length_stripOf]
    decide +kernel
  have harguments : (WrittenType.ofText missingArguments.toList).arguments =
      [[], [], "? super B<C".toList] := by
    decide +kernel
  obtain ⟨hshorter, hstep, hsteps, hnodes⟩ := resolution_ends missingArguments
  rw [hlength] at hshorter hstep hsteps hnodes
  refine ⟨fun a ha => ?_, hstep standard _ fun a ha => if_pos ha, hsteps standard 17 (by decide),
    hnodes⟩
  have hmem : a ∈ (WrittenType.ofText missingArguments.toList).arguments := by
    rw [harguments]
    exact List.mem_cons_of_mem _ ha
  exact ⟨hmem, hshorter a hmem⟩

end TypeTable

end EntityScaffold
