import Mathlib.Tactic.Common
import EntityScaffold.Naming
import EntityScaffold.Proofs.Text.Cut
import EntityScaffold.Proofs.Text.Lines
import EntityScaffold.Proofs.Text.Trim
import EntityScaffold.Types.ResolvedType

/-!
# Solid names

A name without blanks and semicolons is read as it stands wherever it is written on a line of its
own: nothing is trimmed off it, and it is no import line that another name stands in
(`ImportBlock.target_eq_self`). Packages that are put together from solid parts are solid.
-/

namespace EntityScaffold

open Text

/-- A text has neither blanks nor semicolons. -/
def Text.IsSolid (s : String) : Prop := ∀ c ∈ s.toList, isBlank c = false ∧ c ≠ ';'

namespace Text.IsSolid

variable {s t : String}

instance (s : String) : Decidable (IsSolid s) :=
  decidable_of_iff (s.toList.all fun c => !isBlank c && c != ';') (by simp [IsSolid])

/-- A literal is checked by its characters, without taking its bytes apart. -/
theorem ofList {cs : List Char} (h : cs.all (fun c => !isBlank c && c != ';') = true) :
    IsSolid (String.ofList cs) := by
  intro c hc
  rw [String.toList_ofList] at hc
  simpa using List.all_eq_true.1 h c hc

theorem mono (h : IsSolid t) (hsub : ∀ c ∈ s.toList, c ∈ t.toList) : IsSolid s :=
  fun c hc => h c (hsub c hc)

theorem append (hs : IsSolid s) (ht : IsSolid t) : IsSolid (s ++ t) := by
  intro c hc
  rw [String.toList_append, List.mem_append] at hc
  exact hc.elim (hs c) (ht c)

theorem newline_notMem (h : IsSolid s) : '\n' ∉ s.toList := fun hc => by
  have hblank := (h _ hc).1
  revert hblank
  decide

end Text.IsSolid

/-! ### Trimming -/

namespace Text

theorem IsSolid.stripOf {s : String} (h : IsSolid s) (p : Char → Bool) : IsSolid (stripOf p s) := by
  refine h.mono fun c hc => ?_
  rw [toList_stripOf] at hc
  exact mem_of_mem_trim hc

theorem IsSolid.strip_eq_self {s : String} (h : IsSolid s) : strip s = s :=
  (IsTrimmed.of_forall fun c hc => (h c hc).1).stripOf_eq_self

/-! ### Joining -/

theorem IsSolid.join {sep : String} {parts : List String} (hsep : IsSolid sep)
    (h : ∀ s ∈ parts, IsSolid s) : IsSolid (join sep parts) := fun c hc =>
  (mem_join hc).elim (hsep c) fun ⟨s, hs, hcs⟩ => h s hs c hcs

end Text

/-! ### Names in packages -/

theorem Package.isSolid_joinParts {parts : List String} (h : ∀ s ∈ parts, IsSolid s) :
    IsSolid (joinParts parts) := by
  refine IsSolid.join (by decide) fun s hs => ?_
  obtain ⟨part, hpart, rfl⟩ := List.mem_map.1 (List.mem_filter.1 hs).1
  exact (h part hpart).stripOf _

theorem ResolvedType.isSolid_qualify {ns name : String} (hns : IsSolid ns) (hname : IsSolid name) :
    IsSolid (qualify ns name) := by
  unfold qualify
  split
  · exact hname
  · exact (hns.append (by decide)).append hname

/-! ### Import lines -/

namespace ImportBlock

variable {q : String}

/-- A text without blanks is no import line. -/
theorem afterKeyword_eq_self {s : List Char} (h : ∀ c ∈ s, isBlank c = false) :
    afterKeyword s = s := by
  unfold afterKeyword
  rw [dropWhile_eq_self (IsTrimmed.of_forall h).head]
  split
  · rename_i c rest hdrop
    have hc : c ∈ s := by
      unfold dropStart? at hdrop
      split at hdrop
      · exact List.mem_of_mem_drop (Option.some.inj hdrop ▸ List.mem_cons_self)
      · cases hdrop
    rw [if_neg (by simp [h c hc])]
  · rfl

/-- **A solid name is imported as it stands.** -/
theorem target_eq_self (h : IsSolid q) : target q = q := by
  have hblank : ∀ c ∈ q.toList, isBlank c = false := fun c hc => (h c hc).1
  have hsemicolon : ∀ c ∈ q.toList, (c == ';') = false := fun c hc => by simp [(h c hc).2]
  rw [target, onChars, (IsTrimmed.of_forall hblank).trim_eq_self, afterKeyword_eq_self hblank,
    trimEnd_eq_self (IsTrimmed.of_forall hsemicolon).last,
    (IsTrimmed.of_forall hblank).trim_eq_self, String.ofList_toList]

/-- The lines for solid names are one for each name. -/
theorem mem_lines {names : List String} (h : ∀ q ∈ names, IsSolid q ∧ q ≠ "") {l : String} :
    l ∈ lines names ↔ ∃ q ∈ names, line q = l := by
  have htargets : names.map target = names :=
    (List.map_congr_left fun q hq => target_eq_self (h q hq).1).trans (List.map_id' names)
  have hnonempty : names.filter (· != "") = names :=
    List.filter_eq_self.2 fun q hq => by simp [(h q hq).2]
  rw [lines, htargets, hnonempty, mem_sortedSet, List.mem_map]

theorem line_injective : Function.Injective line := by
  intro q q' h
  have h' := congrArg String.toList h
  simp only [line, String.toList_append, List.append_cancel_left_eq,
    List.append_cancel_right_eq] at h'
  exact String.toList_injective h'

theorem newline_notMem_line (h : IsSolid q) : '\n' ∉ (line q).toList := by
  have hq := h.newline_notMem
  simp [line, hq]

end ImportBlock

end EntityScaffold
