import EntityScaffold.Naming
import EntityScaffold.Proofs.Text.Cut
import EntityScaffold.Proofs.Text.Lines
import EntityScaffold.Proofs.Text.Trim

/-!
# Where words start

A text may stand in another one at its start, or after a blank, where a word of it starts. What is
left of a text after trimming stands in it like this, and so does what an import line names
(`StartsWordIn.target`) and each line of a text (`StartsWordIn.of_mem_lines`). If a text without
semicolons is not what a statement itself starts with, it starts a word of what the statement names
(`StartsWordIn.of_statement`).
-/

namespace EntityScaffold.Text

/-- The text stands in the other one where a word starts. -/
def StartsWordIn (w s : List Char) : Prop :=
  ∃ before after, s = before ++ w ++ after ∧ ∀ c ∈ before.getLast?, isBlank c = true

namespace StartsWordIn

variable {w s t : List Char}

theorem of_start (h : w <+: s) : StartsWordIn w s := by
  obtain ⟨after, rfl⟩ := h
  exact ⟨[], after, rfl, by simp⟩

theorem refl (s : List Char) : StartsWordIn s s := of_start List.prefix_rfl

theorem trans (h : StartsWordIn w t) (h' : StartsWordIn t s) : StartsWordIn w s := by
  obtain ⟨before, after, rfl, hbefore⟩ := h
  obtain ⟨before', after', rfl, hbefore'⟩ := h'
  refine ⟨before' ++ before, after ++ after', by simp, fun c hc => ?_⟩
  rw [List.getLast?_append] at hc
  rcases Option.or_eq_some_iff.1 hc with hc | ⟨-, hc⟩
  · exact hbefore c hc
  · exact hbefore' c hc

theorem mono_right (h : StartsWordIn w s) (hst : s <+: t) : StartsWordIn w t :=
  h.trans (of_start hst)

/-- In a text without blanks a word starts only at the start. -/
theorem iff_start (hs : ∀ c ∈ s, isBlank c = false) : StartsWordIn w s ↔ w <+: s := by
  refine ⟨?_, of_start⟩
  rintro ⟨before, after, rfl, hbefore⟩
  rcases List.eq_nil_or_concat before with rfl | ⟨before, c, rfl⟩
  · exact List.prefix_append _ _
  · have hblank := hbefore c (by simp)
    rw [hs c (by simp)] at hblank
    cases hblank

/-! ### Trimming -/

theorem dropWhile (s : List Char) : StartsWordIn (s.dropWhile isBlank) s := by
  refine ⟨s.takeWhile isBlank, [], by simp, fun c hc => ?_⟩
  exact List.all_eq_true.1 List.all_takeWhile c (List.mem_of_getLast? hc)

theorem trimEnd (p : Char → Bool) (s : List Char) : StartsWordIn (trimEnd p s) s :=
  of_start (trimEnd_isPrefix p s)

theorem trim (s : List Char) : StartsWordIn (trim isBlank s) s :=
  (trimEnd isBlank _).trans (dropWhile s)

/-- What follows the keyword of an import line stands after a blank. -/
theorem afterKeyword (s : List Char) : StartsWordIn (ImportBlock.afterKeyword s) s := by
  unfold ImportBlock.afterKeyword
  split
  · rename_i c rest hdrop
    split
    · rename_i hblank
      have hrest : StartsWordIn rest (s.dropWhile isBlank) := by
        rw [eq_append_of_dropStart? hdrop]
        exact ⟨"import".toList ++ [c], [], by simp, by simpa using hblank⟩
      exact (dropWhile rest).trans (hrest.trans (dropWhile s))
    · exact refl s
  · exact refl s

/-- **What an import line names starts a word of what it was made from.** -/
theorem target (item : String) : StartsWordIn (ImportBlock.target item).toList item.toList := by
  rw [ImportBlock.target, toList_onChars]
  exact (trim _).trans ((trimEnd _ _).trans ((afterKeyword _).trans (trim _)))

/-! ### Lines and statements -/

theorem of_mem_intercalate {parts : List (List Char)} (h : w ∈ parts) :
    StartsWordIn w (['\n'].intercalate parts) := by
  induction parts with
  | nil => cases h
  | cons x parts ih =>
    cases parts with
    | nil =>
      rw [List.mem_singleton.1 h, List.intercalate_singleton]
      exact refl x
    | cons y parts =>
      rw [List.intercalate_cons_cons]
      rcases List.mem_cons.1 h with rfl | h
      · exact of_start (by simp)
      · exact (ih h).trans ⟨x ++ ['\n'], [], by simp, by simp [isBlank]⟩

/-- **Each line of a text starts a word.** -/
theorem of_mem_lines {line : String} (h : line ∈ lines s) : StartsWordIn line.toList s := by
  obtain ⟨x, hx, rfl⟩ := List.mem_map.1 h
  have hin := of_mem_intercalate hx
  rwa [List.intercalate_splitOn, ← String.toList_ofList (l := x)] at hin

/-- **A word of a statement starts in what it names**, if it is not the start of the statement. -/
theorem of_statement {keyword : List Char} (hkeyword : ∀ c ∈ keyword, isBlank c = false)
    (hstart : ¬ w <+: keyword ++ ' ' :: (s ++ [';'])) (hw : ';' ∉ w)
    (h : StartsWordIn w (keyword ++ ' ' :: (s ++ [';']))) : StartsWordIn w s := by
  obtain ⟨before, after, hsplit, hbefore⟩ := h
  rw [List.append_assoc] at hsplit
  have hne : before ≠ [] := by
    rintro rfl
    exact hstart ⟨after, hsplit.symm⟩
  have hlong : ¬ before <+: keyword := by
    intro hstarts
    have hblank := hbefore _ (List.getLast?_eq_some_getLast hne)
    rw [hkeyword _ (hstarts.subset (List.getLast_mem hne))] at hblank
    cases hblank
  rcases List.append_eq_append_iff.1 hsplit with ⟨z, rfl, hz⟩ | ⟨z, hz, -⟩
  · cases z with
    | nil => exact absurd (by simp) hlong
    | cons c z =>
      -- the word starts in the name, and the semicolon is behind it
      rw [List.cons_append, List.cons.injEq] at hz
      obtain ⟨rfl, hz⟩ := hz
      rcases List.eq_nil_or_concat after with rfl | ⟨after, d, rfl⟩
      · rcases List.eq_nil_or_concat w with rfl | ⟨w, d, rfl⟩
        · exact absurd List.nil_prefix hstart
        · rw [List.append_nil, List.concat_eq_append, ← List.append_assoc] at hz
          obtain rfl : ';' = d := List.singleton_inj.1 (List.append_inj' hz rfl).2
          exact absurd (by simp) hw
      · rw [← List.append_assoc, List.concat_eq_append, ← List.append_assoc] at hz
        refine ⟨z, after, (List.append_inj' hz rfl).1, fun d hd => hbefore d ?_⟩
        rw [List.getLast?_append, List.getLast?_cons, Option.mem_def.1 hd]
        rfl
  · exact absurd ⟨z, hz.symm⟩ hlong

end StartsWordIn

end EntityScaffold.Text
