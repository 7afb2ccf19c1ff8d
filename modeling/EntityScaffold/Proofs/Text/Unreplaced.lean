import EntityScaffold.Proofs.Text.WholeWord

/-!
# What stood before words were replaced

A text with words replaced tells what it was made from. A part that lacks a character of the new
word has not been touched, up to where it is cut off (`suffix_of_suffix_replaceWord`); a cut in the
result is a cut in the text (`eq_append_cons_of_replaceWord`). A word that is not delimited by word
characters never turns into one that only goes on behind it (`eq_append_of_replaceWord`).
-/

namespace EntityScaffold.Text

variable {first : Char} {others new : List Char}

/-- A text stays as it is, or it gets the new word. -/
theorem eq_self_or_infix_replaceWordAfter (b : Option Char) (s : List Char) :
    replaceWordAfter first others new b s = s ∨
      new <:+: replaceWordAfter first others new b s := by
  induction s generalizing b with
  | nil => exact Or.inl (by rw [replaceWordAfter])
  | cons c rest ih =>
    rw [replaceWordAfter]
    split_ifs with hs
    · exact Or.inr (List.infix_append_left)
    · rcases ih (some c) with h | h
      · exact Or.inl (by rw [h])
      · exact Or.inr (h.trans (List.suffix_cons c _).isInfix)

theorem replaceWordAfter_eq_self_of_notMem {b : Option Char} {s : List Char} {d : Char}
    (hd : d ∈ new) (h : d ∉ replaceWordAfter first others new b s) :
    replaceWordAfter first others new b s = s :=
  (eq_self_or_infix_replaceWordAfter b s).resolve_right fun hi => h (hi.subset hd)

/-- Characters come from the text or from the new word. -/
theorem notMem_replaceWordAfter {c : Char} (hnew : c ∉ new) {s : List Char} (hs : c ∉ s)
    (b : Option Char) : c ∉ replaceWordAfter first others new b s := by
  fun_induction replaceWordAfter first others new b s with
  | case1 b => exact hs
  | case2 b d rest _ ih =>
    rw [List.mem_append]
    rintro (hm | hm)
    · exact hnew hm
    · exact ih (fun hr => hs (List.mem_cons_of_mem d (List.mem_of_mem_drop hr))) hm
  | case3 b d rest _ ih =>
    rw [List.mem_cons]
    rintro (rfl | hm)
    · exact hs List.mem_cons_self
    · exact ih (fun hr => hs (List.mem_cons_of_mem d hr)) hm

/-- An end without the last character of the new word is the end of the text. -/
theorem suffix_of_suffix_replaceWordAfter {b : Option Char} {s u : List Char} {d : Char}
    (h : u <:+ replaceWordAfter first others (new ++ [d]) b s) (hd : d ∉ u) : u <:+ s := by
  fun_induction replaceWordAfter first others (new ++ [d]) b s with
  | case1 b => exact h
  | case2 b c rest _ ih =>
    refine (ih ?_).trans ((List.drop_suffix _ _).trans (List.suffix_cons c rest))
    -- otherwise the end reaches into the new word, whose last character it lacks
    rw [List.append_assoc, List.singleton_append] at h
    rcases List.suffix_or_suffix_of_suffix h (List.suffix_append new _) with hu | hu
    · rcases List.suffix_cons_iff.1 hu with rfl | hu
      · exact absurd List.mem_cons_self hd
      · exact hu
    · exact absurd (hu.subset List.mem_cons_self) hd
  | case3 b c rest _ ih =>
    rcases List.suffix_cons_iff.1 h with rfl | hu
    · refine List.suffix_cons_iff.2 (Or.inl ?_)
      rw [replaceWordAfter_eq_self_of_notMem (by simp) (fun hm => hd (List.mem_cons_of_mem c hm))]
    · exact (ih hu).trans (List.suffix_cons c rest)

/-- Only the empty text becomes empty. -/
theorem eq_nil_of_replaceWordAfter {b : Option Char} {s : List Char} (hnew : new ≠ [])
    (h : replaceWordAfter first others new b s = []) : s = [] := by
  cases s with
  | nil => rfl
  | cons c rest =>
    rw [replaceWordAfter] at h
    split_ifs at h
    · exact absurd (List.append_eq_nil_iff.1 h).1 hnew

/-- A word that goes on behind another one, which is not delimited by word characters, comes from
itself. -/
theorem eq_append_of_replaceWordAfter {tail s : List Char} (hd : ¬ IsDelimited (first :: others))
    (h : replaceWordAfter first others (first :: others ++ tail) none s = first :: others ++ tail) :
    s = first :: others ++ tail := by
  cases s with
  | nil => rw [replaceWordAfter] at h; cases h
  | cons c rest =>
    rw [replaceWordAfter] at h
    split_ifs at h with hs
    · -- the text is the word alone, which is no whole word
      rw [List.append_right_eq_self] at h
      have hdrop := eq_nil_of_replaceWordAfter (by simp) h
      obtain ⟨y, hy⟩ := prefix_of_startsWithWord hs
      rw [List.cons_append, List.cons.injEq] at hy
      obtain ⟨rfl, rfl⟩ := hy
      rw [List.drop_left] at hdrop
      rw [hdrop, List.append_nil, startsWithWord_self] at hs
      exact absurd hs hd
    · rw [List.cons_append, List.cons.injEq] at h
      obtain ⟨rfl, hrest⟩ := h
      rcases eq_self_or_infix_replaceWordAfter (some c) rest with he | hi
      · rw [List.cons_append, ← hrest, he]
      · rw [hrest] at hi
        exact absurd hi.length_le (by simp)

section

variable {word : List Char} (hw : word ≠ [])
include hw

theorem replaceWord_eq_self_of_notMem {s : List Char} {d : Char} (hd : d ∈ new)
    (h : d ∉ replaceWord word new s) : replaceWord word new s = s := by
  obtain ⟨first, others, rfl⟩ := List.exists_cons_of_ne_nil hw
  exact replaceWordAfter_eq_self_of_notMem hd h

theorem notMem_replaceWord {s : List Char} {c : Char} (hnew : c ∉ new) (hs : c ∉ s) :
    c ∉ replaceWord word new s := by
  obtain ⟨first, others, rfl⟩ := List.exists_cons_of_ne_nil hw
  exact notMem_replaceWordAfter hnew hs none

theorem suffix_of_suffix_replaceWord {s u : List Char} {d : Char}
    (h : u <:+ replaceWord word (new ++ [d]) s) (hd : d ∉ u) : u <:+ s := by
  obtain ⟨first, others, rfl⟩ := List.exists_cons_of_ne_nil hw
  exact suffix_of_suffix_replaceWordAfter h hd

/-- **A word that goes on behind one that is not delimited was there before.** -/
theorem eq_append_of_replaceWord {tail s : List Char} (hd : ¬ IsDelimited word)
    (h : replaceWord word (word ++ tail) s = word ++ tail) : s = word ++ tail := by
  obtain ⟨first, others, rfl⟩ := List.exists_cons_of_ne_nil hw
  exact eq_append_of_replaceWordAfter hd h

/-- **A cut in the result is a cut in the text**, and both sides come from both sides. -/
theorem eq_append_cons_of_replaceWord {c : Char} (hc : isWord c = false) (hn : c ∉ word)
    (hnew : c ∉ new) {s x y : List Char} (h : replaceWord word new s = x ++ c :: y) :
    ∃ x' y', s = x' ++ c :: y' ∧ replaceWord word new x' = x ∧ replaceWord word new y' = y := by
  have hmem : c ∈ s := by
    by_contra hs
    exact notMem_replaceWord hw hnew hs (by simp [h])
  obtain ⟨x₀, y₀, hs, hx₀⟩ := List.eq_append_cons_of_mem hmem
  have hlt : y₀.length < s.length := by
    rw [hs, List.length_append, List.length_cons]
    omega
  rw [hs, replaceWord_append_cons hw hc hn] at h
  rcases List.append_eq_append_iff.1 h with ⟨z, hx, hz⟩ | ⟨z, hx, hz⟩
  · cases z with
    | nil =>
      rw [List.nil_append, List.cons.injEq] at hz
      exact ⟨x₀, y₀, hs, by simpa using hx.symm, hz.2⟩
    | cons d z =>
      -- the cut is a later one
      rw [List.cons_append, List.cons.injEq] at hz
      obtain ⟨rfl, hz⟩ := hz
      obtain ⟨x', y', hy₀, hx', hy'⟩ := eq_append_cons_of_replaceWord hc hn hnew hz
      refine ⟨x₀ ++ c :: x', y', by rw [hs, hy₀]; simp, ?_, hy'⟩
      rw [replaceWord_append_cons hw hc hn, hx', hx]
  · cases z with
    | nil =>
      rw [List.nil_append, List.cons.injEq] at hz
      exact ⟨x₀, y₀, hs, by simpa using hx, hz.2.symm⟩
    | cons d z =>
      rw [List.cons_append, List.cons.injEq] at hz
      obtain ⟨rfl, -⟩ := hz
      exact absurd (by simp [hx]) (notMem_replaceWord hw hnew hx₀)
termination_by s.length
decreasing_by exact hlt

end

end EntityScaffold.Text
