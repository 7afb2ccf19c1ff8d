import Mathlib.Data.List.Nodup
import Mathlib.Data.List.Sort
import Mathlib.Data.String.Basic
import Mathlib.Tactic.Common
import EntityScaffold.Text.Cut

/-!
# Lines

A text is read as its lines. Lines that are put together, each with a newline behind it, are got
back one by one, whatever follows them (`lines_append`).

Sorted lines without repetitions ascend strictly in the order of code points
(`pairwise_lt_sortedSet`).
-/

namespace EntityScaffold.Text

/-- The lines of a text. -/
def lines (s : List Char) : List String := (s.splitOn '\n').map String.ofList

/-- Lines with a newline behind each. -/
def unlines (ls : List String) : List Char := ls.flatMap fun l => l.toList ++ ['\n']

theorem lines_cons {l : String} (h : '\n' ∉ l.toList) (rest : List Char) :
    lines (l.toList ++ '\n' :: rest) = l :: lines rest := by
  rw [lines, List.splitOn_append_cons_self_of_not_mem h, List.map_cons, String.ofList_toList]
  rfl

theorem lines_eq_singleton {l : String} (h : '\n' ∉ l.toList) : lines l.toList = [l] := by
  rw [lines, List.splitOn_eq_singleton h, List.map_singleton, String.ofList_toList]

/-- The lines of texts with a newline behind each are those of one text after the other. -/
theorem lines_unlines_append (ls : List String) (rest : List Char) :
    lines (unlines ls ++ rest) = (ls.flatMap fun l => lines l.toList) ++ lines rest := by
  induction ls with
  | nil => rfl
  | cons l ls ih =>
    have hfirst : unlines (l :: ls) ++ rest = l.toList ++ '\n' :: (unlines ls ++ rest) := by
      simp [unlines]
    rw [hfirst, List.flatMap_cons, List.append_assoc, ← ih, lines, List.splitOn_append_cons_self,
      List.map_append]
    rfl

/-- **Lines are got back from the text that they start.** -/
theorem lines_append {ls : List String} (h : ∀ l ∈ ls, '\n' ∉ l.toList) (rest : List Char) :
    lines (unlines ls ++ rest) = ls ++ lines rest := by
  have hself : (ls.flatMap fun l => lines l.toList) = ls :=
    (List.flatMap_congr fun l hl => lines_eq_singleton (h l hl)).trans (List.flatMap_singleton' ls)
  rw [lines_unlines_append, hself]

theorem unlines_append (ls ls' : List String) : unlines (ls ++ ls') = unlines ls ++ unlines ls' :=
  List.flatMap_append

/-- What a text starts with, up to a newline, its first line starts with. -/
theorem exists_lines_append {w : List Char} (h : '\n' ∉ w) (s : List Char) :
    ∃ first rest, lines (w ++ s) = first :: rest ∧ w <+: first.toList := by
  cases hcut : cutFirst '\n' s with
  | none =>
    have hno : '\n' ∉ w ++ s := by
      rw [List.mem_append, not_or]
      exact ⟨h, cutFirst_eq_none_iff.1 hcut⟩
    refine ⟨String.ofList (w ++ s), [], ?_, by simp⟩
    rw [lines, List.splitOn_eq_singleton hno]
    rfl
  | some parts =>
    obtain ⟨rfl, hno⟩ := eq_of_cutFirst hcut
    refine ⟨String.ofList (w ++ parts.1), lines parts.2, ?_, by simp⟩
    rw [← List.append_assoc, ← lines_cons (by simp [h, hno]), String.toList_ofList]

/-! ### Sorted lines -/

variable {xs : List String} {s : String}

theorem mem_sortedSet : s ∈ sortedSet xs ↔ s ∈ xs := by
  rw [sortedSet, sorted, List.mem_mergeSort, List.mem_eraseDups]

theorem nodup_eraseDups (xs : List String) : xs.eraseDups.Nodup := by
  match xs with
  | [] => simp
  | x :: xs =>
    rw [List.eraseDups_cons, List.nodup_cons, List.mem_eraseDups]
    exact ⟨by simp, nodup_eraseDups _⟩
termination_by xs.length
decreasing_by
  have := List.length_filter_le (fun y => !y == x) xs
  simp only [List.length_cons]
  omega

/-- **A sorted set of lines ascends strictly.** -/
theorem pairwise_lt_sortedSet (xs : List String) : (sortedSet xs).Pairwise (· < ·) := by
  have hle : (sortedSet xs).Pairwise (· ≤ ·) := List.pairwise_mergeSort' (· ≤ ·) xs.eraseDups
  have hne : (sortedSet xs).Nodup :=
    (List.mergeSort_perm _ _).nodup_iff.2 (nodup_eraseDups xs)
  exact (hle.and hne).imp fun h => lt_of_le_of_ne h.1 h.2

/-- Strictly ascending lines are the sorted set of all lists of the same lines. -/
theorem sortedSet_eq {ys : List String} (hys : ys.Pairwise (· < ·))
    (hsub : ∀ s ∈ ys, s ∈ xs) (hsup : ∀ s ∈ xs, s ∈ ys) : sortedSet xs = ys := by
  have hxs := pairwise_lt_sortedSet xs
  refine List.Perm.eq_of_pairwise (fun a b _ _ hab hba => absurd hab hba.not_gt) hxs hys ?_
  refine (List.perm_ext_iff_of_nodup (hxs.imp fun h => h.ne) (hys.imp fun h => h.ne)).2 fun s => ?_
  rw [mem_sortedSet]
  exact ⟨hsup s, hsub s⟩

end EntityScaffold.Text
